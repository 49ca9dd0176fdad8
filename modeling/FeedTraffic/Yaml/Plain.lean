import FeedTraffic.Number.Whole
import FeedTraffic.Settings.Value

/-!
# What plain scalars stand for

A plain scalar is nothing, a truth value, a whole number in one of four bases, a float, or a text.
Digits behind a leading zero are a text.
-/

namespace FeedTraffic.Yaml.Plain

open FeedTraffic.Number FeedTraffic.Settings

def isNull (s : String) : Bool := ["~", "null", "Null", "NULL"].contains s

def bool? (s : String) : Option Bool :=
  if ["true", "True", "TRUE"].contains s then some true
  else if ["false", "False", "FALSE"].contains s then some false
  else none

/-- A leading zero and nothing but digits behind it, after an optional sign. -/
def isZeroLed (cs : List Char) : Bool :=
  let cs := match cs with
    | '+' :: rest => rest
    | '-' :: rest => rest
    | _ => cs
  match cs with
  | '0' :: c :: rest => (c :: rest).all Char.isDigit
  | _ => false

/-- The size of a number behind its sign. -/
def magnitude? (cs : List Char) : Option Nat :=
  match cs with
  | '0' :: 'x' :: rest => Whole.inBase? 16 rest
  | '0' :: 'o' :: rest => Whole.inBase? 8 rest
  | '0' :: 'b' :: rest => Whole.inBase? 2 rest
  | _ => if isZeroLed cs then none else Whole.inBase? 10 cs

/-- A whole number, in the smallest of the widths that hold it. -/
def whole? (cs : List Char) : Option Scalar :=
  match cs with
  | '-' :: rest =>
    (magnitude? rest).bind fun n =>
      if n ≤ 2 ^ 63 then some (.signed (-(n : Int)))
      else if n ≤ 2 ^ 127 then some (.wideSigned (-(n : Int)))
      else none
  | _ =>
    let rest := match cs with
      | '+' :: rest => rest
      | _ => cs
    (magnitude? rest).bind fun n =>
      if n < 2 ^ 64 then some (.unsigned n)
      else if n < 2 ^ 128 then some (.wideUnsigned n)
      else none

def isInfinity (s : String) : Bool := [".inf", ".Inf", ".INF"].contains s

/-- A float: infinity or no number by their marks, or a decimal that stays finite. -/
def float? (s : String) : Option Binary64 :=
  let (signed, body) := match s.toList with
    | '+' :: rest => (true, String.ofList rest)
    | _ => (false, s)
  if signed && ['+', '-'].any (body.toList.head? == some ·) then none
  else if isInfinity body then some (.infinite false)
  else if ["-.inf", "-.Inf", "-.INF"].contains s then some (.infinite true)
  else if [".nan", ".NaN", ".NAN"].contains s then some .nan
  else (Binary64.ofText? body).filter (·.isFinite)

def scalar (s : String) : Scalar :=
  if s.isEmpty || isNull s then .empty
  else match bool? s with
    | some b => .bool b
    | none =>
      match whole? s.toList with
      | some n => n
      | none =>
        if isZeroLed s.toList then .text s
        else match float? s with
          | some x => .float x
          | none => .text s

/-- What a scalar with one of the tags of the language stands for, if it can. -/
def tagged? (tag s : String) : Option Scalar :=
  if tag = "tag:yaml.org,2002:bool" then (bool? s).map .bool
  else if tag = "tag:yaml.org,2002:int" then whole? s.toList
  else if tag = "tag:yaml.org,2002:float" then (float? s).map .float
  else if tag = "tag:yaml.org,2002:null" then (if isNull s then some .empty else none)
  else some (.text s)

end FeedTraffic.Yaml.Plain
