import Conformance.Number.Binary64
import Conformance.Number.Numeral

namespace Conformance.Binary64

/-- The fraction of digits `d₁d₂…` read after the point, times a power of ten. -/
structure Decimal where
  digits : List Char
  point : Int

/-- The power of ten that a positive fraction reaches and the next one exceeds. -/
def leadingPower (num den : Nat) : Int :=
  if den ≤ num then (Numeral.digits (num / den)).length - 1
  else -((Numeral.digits ((den + num - 1) / num - 1)).length : Int)

/-- Whether a fraction rounds to a positive number: it lies between the midpoints to the two
neighbours, which count when the mantissa is even. -/
def roundsTo (x : Binary64) (num den : Nat) : Bool :=
  let e := x.exponent - 2
  let up := 1 <<< e.toNat
  let down := 1 <<< (-e).toNat
  let low := 4 * x.mantissa - (if x.mantissa = leadingBit ∧ x.exponent > -1074 then 1 else 2)
  let high := 4 * x.mantissa + 2
  let n := num * down
  if x.mantissa % 2 = 0 then low * up * den ≤ n && n ≤ high * up * den
  else low * up * den < n && n < high * up * den

/-- On the grid of `places` digits, the nearer of the two neighbours that rounds to the number. -/
def onGrid (x : Binary64) (power : Int) (places : Nat) : Option Nat :=
  let step := power + 1 - places
  let up := Nat.pow 10 step.toNat
  let down := Nat.pow 10 (-step).toNat
  let num := x.numerator * down
  let den := x.denominator * up
  let below := num / den
  let above := below + 1
  let fits (c : Nat) : Bool := roundsTo x (c * up) down
  let nearest := divNearest num den
  if fits nearest then some nearest
  else if fits below then some below
  else if fits above then some above
  else none

/-- Tries ever finer grids; seventeen digits are always enough. -/
def search (x : Binary64) (power : Int) : (places fuel : Nat) → Nat × Nat
  | places, 0 => ((onGrid x power places).getD 0, places)
  | places, fuel + 1 =>
    match onGrid x power places with
    | some c => (c, places)
    | none => search x power (places + 1) fuel

def shortest (x : Binary64) : Decimal :=
  let power := leadingPower x.numerator x.denominator
  let (c, places) := search x power 1 16
  let all := Numeral.digits c
  let kept := (all.reverse.dropWhile (· = '0')).reverse
  ⟨kept, power + 1 + (all.length - places)⟩

/-- A sign, also where it is a plus, and the digits it takes. -/
def exponentText (e : Int) : List Char :=
  let digits := (Numeral.ofInt e).toList
  if 0 ≤ e then '+' :: digits else digits

/-- Positional from four zeros after the point up to sixteen digits before it; else with an
exponent. A whole number keeps one zero after the point. -/
def Decimal.text (d : Decimal) : List Char :=
  let n : Int := d.digits.length
  if n ≤ d.point ∧ d.point ≤ 16 then
    d.digits ++ List.replicate (d.point - n).toNat '0' ++ ['.', '0']
  else if 0 < d.point ∧ d.point ≤ 16 then
    d.digits.take d.point.toNat ++ '.' :: d.digits.drop d.point.toNat
  else if -5 < d.point ∧ d.point ≤ 0 then
    '0' :: '.' :: List.replicate (-d.point).toNat '0' ++ d.digits
  else
    let exponent := exponentText (d.point - 1)
    match d.digits with
    | [] => []
    | [c] => c :: 'e' :: exponent
    | c :: cs => c :: '.' :: cs ++ 'e' :: exponent

def toText (x : Binary64) : String :=
  let body := if x.mantissa = 0 then ['0', '.', '0'] else x.shortest.text
  String.ofList (if x.negative then '-' :: body else body)

end Conformance.Binary64
