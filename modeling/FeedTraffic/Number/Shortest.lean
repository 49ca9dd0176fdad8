import FeedTraffic.Number.Binary64

/-!
# The shortest decimals that read back

`shortest` finds the fewest digits that name a double among all doubles, and of those the nearest
to it.  A decimal names a double when it lies between the two midpoints to the double's
neighbours; the midpoints themselves count when the mantissa is even.  Two writers use it: `plain`
never writes an exponent, `general` writes one for very large and very small numbers and keeps
one decimal of a whole number.
-/

namespace FeedTraffic.Number.Binary64

/-- A decimal `digits · 10^exponent`. -/
structure Decimal where
  digits : Nat
  exponent : Int
  deriving DecidableEq, Repr

/-- Whether `digits · 10^exponent` is at most, or below, `quarters / 4` steps. -/
def Decimal.within (d : Decimal) (low high : Nat) (closed : Bool) : Bool :=
  let num := d.digits * 10 ^ d.exponent.toNat * unit * 4
  let den := 10 ^ (-d.exponent).toNat
  if closed then low * den ≤ num && num ≤ high * den
  else low * den < num && num < high * den

/-- The distance of a decimal to a number of steps, over the common denominator. -/
def Decimal.distance (d : Decimal) (steps : Nat) : Nat :=
  let num := d.digits * 10 ^ d.exponent.toNat * unit
  let value := steps * 10 ^ (-d.exponent).toNat
  (num - value) + (value - num)

/-- The power of ten of the leading digit. -/
def leading (steps : Nat) : Int :=
  let guess : Int := ((steps.log2 : Int) - 1074) * 30103 / 100000
  let above : Nat := steps * 10 ^ (-(guess + 1)).toNat
  if unit * 10 ^ (guess + 1).toNat ≤ above then guess + 1 else guess

/-- The decimals with a given number of digits on both sides of a number of steps. -/
def neighbours (steps count : Nat) : List Decimal :=
  let exponent : Int := leading steps + 1 - count
  let below := steps * 10 ^ (-exponent).toNat / (unit * 10 ^ exponent.toNat)
  [⟨below, exponent⟩, ⟨below + 1, exponent⟩]

/-- A decimal without zeros at its end. -/
def Decimal.strip (d : Decimal) : Nat → Decimal
  | 0 => d
  | fuel + 1 =>
    if d.digits % 10 = 0 ∧ d.digits ≠ 0 then Decimal.strip ⟨d.digits / 10, d.exponent + 1⟩ fuel
    else d

/-- The first count of digits, from `count` on, that has a decimal in the interval. -/
def search (steps low high : Nat) (closed : Bool) : Nat → Nat → Option Decimal
  | 0, _ => none
  | fuel + 1, count =>
    match (neighbours steps count).filter (·.within low high closed) with
    | [] => search steps low high closed fuel (count + 1)
    | [d] => some d
    | d :: e :: _ =>
      let near := d.distance steps
      let far := e.distance steps
      some (if near < far ∨ (near = far ∧ d.digits % 2 = 0) then d else e)

def shortest (steps : Nat) : Decimal :=
  let width := spacing steps
  let below := if steps = width * 2 ^ 52 ∧ 1 < width then width else 2 * width
  let closed := steps / width % 2 = 0
  match search steps (4 * steps - below) (4 * steps + 2 * width) closed 17 1 with
  | some d => d.strip 20
  | none => ⟨steps, -1074⟩

/-- Digits with a point at the right place and no exponent. -/
def Decimal.positional (d : Decimal) : String :=
  let ds := Nat.toDigits 10 d.digits
  if 0 ≤ d.exponent then
    String.ofList (ds ++ List.replicate d.exponent.toNat '0')
  else
    let places := (-d.exponent).toNat
    if places < ds.length then
      String.ofList (ds.take (ds.length - places) ++ '.' :: ds.drop (ds.length - places))
    else
      String.ofList ('0' :: '.' :: List.replicate (places - ds.length) '0' ++ ds)

def Decimal.scientific (d : Decimal) : String :=
  let ds := Nat.toDigits 10 d.digits
  let exponent : Int := d.exponent + (ds.length - 1 : Nat)
  let mantissa := match ds with
    | first :: second :: rest => first :: '.' :: second :: rest
    | short => short
  String.ofList mantissa ++ "e" ++ toString exponent

def sign (negative : Bool) : String :=
  if negative then "-" else ""

/-- A number without an exponent; a whole number has no point. -/
def plain : Binary64 → String
  | .nan => "NaN"
  | .infinite negative => sign negative ++ "inf"
  | .finite negative 0 => sign negative ++ "0"
  | .finite negative steps => sign negative ++ (shortest steps).positional

/-- A number with an exponent when it is below `10^-4` or at least `10^16`; otherwise a whole
number ends in `.0`. -/
def general : Binary64 → String
  | .nan => "NaN"
  | .infinite negative => sign negative ++ "inf"
  | .finite negative 0 => sign negative ++ "0.0"
  | .finite negative steps =>
    let d := shortest steps
    let body :=
      if unit * 10 ^ 16 ≤ steps ∨ steps * 10 ^ 4 < unit then d.scientific
      else if 0 ≤ d.exponent then d.positional ++ ".0"
      else d.positional
    sign negative ++ body

end FeedTraffic.Number.Binary64
