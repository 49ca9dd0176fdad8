import FeedTraffic.Number.Natural

/-!
# Double precision numbers as whole multiples

Every finite double is a whole number of steps of `2^-1074`, so a double is kept as that number
and nothing is lost.  `ofRatio` rounds a quotient to the nearest double, ties to the one with an
even mantissa.  Nothing here goes through machine arithmetic.
-/

namespace FeedTraffic.Number

inductive Binary64 where
  | nan
  | infinite (negative : Bool)
  /-- The number `steps · 2^-1074`, with its sign; zero has one of either sign. -/
  | finite (negative : Bool) (steps : Nat)
  deriving DecidableEq, Repr

namespace Binary64

/-- Steps in one unit. -/
def unit : Nat := 2 ^ 1074

/-- The first number of steps that no finite double reaches. -/
def limit : Nat := 2 ^ 2098

/-- The distance of a double to the next one above it, in steps. -/
def spacing (steps : Nat) : Nat :=
  2 ^ (steps.log2 - 52)

/-- A quotient rounded to a whole number, a tie to the even one. -/
def roundHalfEven (num den : Nat) : Nat :=
  let q := num / den
  let twice := 2 * (num % den)
  if den < twice ∨ (twice = den ∧ q % 2 = 1) then q + 1 else q

/-- The double nearest to `num / den` steps. -/
def ofSteps (negative : Bool) (num den : Nat) : Binary64 :=
  let width := spacing (num / den)
  let steps := roundHalfEven num (den * width) * width
  if limit ≤ steps then .infinite negative else .finite negative steps

def ofRatio (negative : Bool) (num den : Nat) : Binary64 :=
  ofSteps negative (num * unit) den

def ofNat (n : Nat) : Binary64 := ofRatio false n 1

def ofInt (i : Int) : Binary64 := ofRatio (decide (i < 0)) i.natAbs 1

/-- The double nearest to `digits · 10^exponent`.  Beyond the range of doubles the power is not
worked out: four hundred places either way decide the answer. -/
def ofDecimal (negative : Bool) (digits : Nat) (exponent : Int) : Binary64 :=
  let places : Int := (Nat.toDigits 10 digits).length + exponent
  if digits = 0 then .finite negative 0
  else if 400 < places then .infinite negative
  else if places < -400 then .finite negative 0
  else ofRatio negative (digits * 10 ^ exponent.toNat) (10 ^ (-exponent).toNat)

def isPositive : Binary64 → Bool
  | .nan => false
  | .infinite negative => !negative
  | .finite negative steps => !negative && steps != 0

def isFinite : Binary64 → Bool
  | .finite _ _ => true
  | _ => false

/-- Digits of an optional run: the digits in front and what follows them. -/
def spanDigits (cs : List Char) : List Char × List Char :=
  (cs.takeWhile Char.isDigit, cs.dropWhile Char.isDigit)

/-- The exponent part of a decimal: nothing, or `e` with an optional sign and digits. -/
def exponent? : List Char → Option Int
  | [] => some 0
  | e :: rest =>
    if e = 'e' ∨ e = 'E' then
      let (negative, digits) := match rest with
        | '-' :: ds => (true, ds)
        | '+' :: ds => (false, ds)
        | ds => (false, ds)
      if digits.isEmpty || !digits.all Char.isDigit then none
      else
        let n : Int := Nat.ofDigitChars 10 digits 0
        some (if negative then -n else n)
    else none

/-- A decimal without a sign: digits around an optional point, at least one of them, and an
optional exponent. -/
def unsigned? (negative : Bool) (cs : List Char) : Option Binary64 :=
  let (whole, rest) := spanDigits cs
  let (fraction, rest) := match rest with
    | '.' :: more => spanDigits more
    | _ => ([], rest)
  if whole.isEmpty && fraction.isEmpty then none
  else (exponent? rest).map fun e =>
    ofDecimal negative (Nat.ofDigitChars 10 (whole ++ fraction) 0) (e - fraction.length)

/-- The double that a text stands for: an optional sign, then a decimal, or `inf`, `infinity` or
`nan` in any case. -/
def ofText? (s : String) : Option Binary64 :=
  let (negative, body) := match s.toList with
    | '-' :: cs => (true, cs)
    | '+' :: cs => (false, cs)
    | cs => (false, cs)
  let word := String.ofList (body.map Char.toLower)
  if word = "inf" ∨ word = "infinity" then some (.infinite negative)
  else if word = "nan" then some .nan
  else unsigned? negative body

end Binary64

end FeedTraffic.Number
