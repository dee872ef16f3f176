namespace Conformance

/-- Why a text is not the numeral of a number in range. -/
inductive NumeralError
  | empty
  | invalidDigit
  | tooLarge
  | tooSmall
  deriving DecidableEq, Repr

namespace NumeralError

def message : NumeralError → String
  | empty => "cannot parse integer from empty string"
  | invalidDigit => "invalid digit found in string"
  | tooLarge => "number too large to fit in target type"
  | tooSmall => "number too small to fit in target type"

end NumeralError

namespace Numeral

def digitChar (d : Nat) : Char := Char.ofNat (48 + d)

def digitValue? (c : Char) : Option Nat :=
  if '0' ≤ c ∧ c ≤ '9' then some (c.toNat - 48) else none

/-- The digits of a number, with no leading zero. -/
def digits (n : Nat) : List Char :=
  if n < 10 then [digitChar n] else digits (n / 10) ++ [digitChar (n % 10)]
  termination_by n

def ofNat (n : Nat) : String := String.ofList (digits n)

/-- A negative number has a minus sign before its magnitude. -/
def ofInt (n : Int) : String :=
  if n < 0 then String.ofList ('-' :: digits n.natAbs) else ofNat n.natAbs

/-- Reads digits on top of what was read before; the first fault from the left counts. -/
def readDigits (limit : Nat) (excess : NumeralError) : Nat → List Char → Except NumeralError Nat
  | acc, [] => .ok acc
  | acc, c :: cs =>
    match digitValue? c with
    | none => .error .invalidDigit
    | some d =>
      if acc * 10 + d ≤ limit then readDigits limit excess (acc * 10 + d) cs
      else .error excess

/-- A numeral of at most `limit`: one plus sign may precede the digits. -/
def readNat (limit : Nat) : List Char → Except NumeralError Nat
  | [] => .error .empty
  | ['+'] => .error .invalidDigit
  | '+' :: cs => readDigits limit .tooLarge 0 cs
  | cs => readDigits limit .tooLarge 0 cs

/-- A numeral from `-(limit + 1)` to `limit`. -/
def readInt (limit : Nat) : List Char → Except NumeralError Int
  | ['-'] => .error .invalidDigit
  | '-' :: cs => (readDigits (limit + 1) .tooSmall 0 cs).map (fun n => -(n : Int))
  | cs => (readNat limit cs).map Int.ofNat

def readUInt16 (cs : List Char) : Except NumeralError UInt16 :=
  (readNat 65535 cs).map UInt16.ofNat

def readUInt64 (cs : List Char) : Except NumeralError UInt64 :=
  (readNat 18446744073709551615 cs).map UInt64.ofNat

def readInt64 (cs : List Char) : Except NumeralError Int64 :=
  (readInt 9223372036854775807 cs).map Int64.ofInt

/-- Digits of any number, with underscores between them left out. -/
def readSpaced : Nat → List Char → Except NumeralError Nat
  | acc, [] => .ok acc
  | acc, '_' :: cs => readSpaced acc cs
  | acc, c :: cs =>
    match digitValue? c with
    | none => .error .invalidDigit
    | some d => readSpaced (acc * 10 + d) cs

/-- A numeral of any size. A plus sign may come first, an underscore may not. -/
def readUnbounded (cs : List Char) : Except NumeralError Nat :=
  let cs := match cs with
    | '+' :: '+' :: _ => cs
    | '+' :: rest => rest
    | _ => cs
  match cs with
  | [] => .error .empty
  | '_' :: _ => .error .invalidDigit
  | _ => readSpaced 0 cs

theorem digitValue?_digitChar {d : Nat} (h : d < 10) : digitValue? (digitChar d) = some d := by
  match d, h with
  | 0, _ | 1, _ | 2, _ | 3, _ | 4, _ | 5, _ | 6, _ | 7, _ | 8, _ | 9, _ => rfl

/-- Reading the digits of a number after others appends them to those. -/
theorem readDigits_digits_append {limit n acc : Nat} {excess : NumeralError} {rest : List Char}
    (hn : acc * Nat.pow 10 (digits n).length + n ≤ limit) :
    readDigits limit excess acc (digits n ++ rest) =
      readDigits limit excess (acc * Nat.pow 10 (digits n).length + n) rest := by
  fun_induction digits n generalizing acc rest with
  | case1 n h =>
    simp only [List.length_singleton] at hn
    simp [readDigits, digitValue?_digitChar h, hn]
  | case2 n h ih =>
    simp only [List.length_append, List.length_singleton, Nat.pow, Nat.mul_eq,
      ← Nat.mul_assoc] at hn ⊢
    rw [List.append_assoc, ih (by omega)]
    simp only [List.singleton_append, readDigits, digitValue?_digitChar (Nat.mod_lt n (by decide)),
      Nat.add_mul]
    rw [if_pos (by omega)]
    congr 1
    omega

theorem readDigits_digits {limit n : Nat} (excess : NumeralError) (hn : n ≤ limit) :
    readDigits limit excess 0 (digits n) = .ok n := by
  have := @readDigits_digits_append limit n 0 excess [] (by simpa using hn)
  simpa [readDigits] using this

theorem digits_inj {m n : Nat} (h : digits m = digits n) : m = n := by
  have hm := readDigits_digits .tooLarge (Nat.le_max_left m n)
  have hn := readDigits_digits .tooLarge (Nat.le_max_right m n)
  rw [h, hn] at hm
  exact (Except.ok.inj hm).symm

end Numeral

namespace Word

def inRange (n : Int) : Bool := -9223372036854775808 ≤ n && n ≤ 9223372036854775807

/-- The sum, unless it is out of range. -/
def add? (a b : Int64) : Option Int64 :=
  if inRange (a.toInt + b.toInt) then some (a + b) else none

/-- The difference, unless it is out of range. -/
def sub? (a b : Int64) : Option Int64 :=
  if inRange (a.toInt - b.toInt) then some (a - b) else none

/-- The next word, unless this is the last. -/
def next? (n : UInt64) : Option UInt64 :=
  if n.toNat = 18446744073709551615 then none else some (n + 1)

/-- The number with the bits of a word, so that a negative word is a large number. -/
def bits (n : Int64) : Nat := n.toUInt64.toNat

end Word
end Conformance
