namespace Conformance

/-- The number is the mantissa times two to the exponent. Zero keeps its sign. -/
structure Binary64 where
  negative : Bool
  mantissa : Nat
  exponent : Int
  deriving DecidableEq, Repr, Inhabited

namespace Binary64

/-- The quotient to the nearest whole number; a tie goes to the even one. -/
def divNearest (n d : Nat) : Nat :=
  let q := n / d
  let twice := 2 * (n % d)
  if twice < d ∨ (twice = d ∧ q % 2 = 0) then q else q + 1

def scaled (num den : Nat) (exponent : Int) : Nat :=
  divNearest (num <<< (-exponent).toNat) (den <<< exponent.toNat)

/-- The least mantissa of 53 bits. -/
def leadingBit : Nat := 4503599627370496

/-- A mantissa has 53 bits unless the exponent is the least one. -/
def exponentFor (num den : Nat) : Int :=
  let guess : Int := (num.log2 : Int) - den.log2 - 52
  let guess := if num <<< (-guess).toNat < den <<< (guess.toNat + 52) then guess - 1 else guess
  max guess (-1074)

/-- The number nearest to a fraction, or nothing when that is beyond the largest. -/
def ofRatio (negative : Bool) (num den : Nat) : Option Binary64 :=
  if num = 0 then some ⟨negative, 0, -1074⟩
  else
    let e := exponentFor num den
    let m := scaled num den e
    let (m, e) := if m = 2 * leadingBit then (leadingBit, e + 1) else (m, e)
    if e ≤ 971 then some ⟨negative, m, e⟩ else none

def numerator (x : Binary64) : Nat := x.mantissa <<< x.exponent.toNat

def denominator (x : Binary64) : Nat := 1 <<< (-x.exponent).toNat

def mul? (x y : Binary64) : Option Binary64 :=
  ofRatio (x.negative != y.negative) (x.numerator * y.numerator) (x.denominator * y.denominator)

def div? (x y : Binary64) : Option Binary64 :=
  ofRatio (x.negative != y.negative) (x.numerator * y.denominator) (x.denominator * y.numerator)

def ofNat? (n : Nat) : Option Binary64 := ofRatio false n 1

def zero (negative : Bool) : Binary64 := ⟨negative, 0, -1074⟩

/-- Scaling down by more than `10 ^ 308` takes several divisions, each of them rounded. -/
def scaleDown : (steps : Nat) → Binary64 → Nat → Option Binary64
  | 0, x, _ => some x
  | steps + 1, x, k =>
    if k ≤ 308 then (ofNat? (Nat.pow 10 k)).bind x.div?
    else if x.mantissa = 0 then some x
    else do
      let y ← (ofNat? (Nat.pow 10 308)).bind x.div?
      scaleDown steps y (k - 308)

/-- A whole number times a power of ten: the number is rounded first, then each scaling. -/
def ofScientific (negative : Bool) (significand : Nat) (exponent : Int) : Option Binary64 := do
  let x ← ofNat? significand
  let y ←
    if exponent < 0 then scaleDown 4 x exponent.natAbs
    else if x.mantissa = 0 then some x
    else if exponent.natAbs ≤ 308 then (ofNat? (Nat.pow 10 exponent.natAbs)).bind x.mul?
    else none
  pure { y with negative }

end Binary64
end Conformance
