import Conformance.Bytes
import Conformance.Number.Numeral

namespace Conformance

/-- Why a text is not a run of digit pairs. Positions count bytes from zero. -/
inductive HexError
  | oddLength
  | invalidDigit (byte : UInt8) (position : Nat)
  deriving DecidableEq, Repr

namespace HexError

def lowerDigits (n : Nat) : String := String.ofList (Nat.toDigits 16 n)

/-- A character in single quotes: controls, blanks but the space, quote and backslash are escaped. -/
def quoted (byte : UInt8) : String :=
  let c := Char.ofNat byte.toNat
  let body :=
    if c = '\x00' then "\\0"
    else if c = '\t' then "\\t"
    else if c = '\n' then "\\n"
    else if c = '\r' then "\\r"
    else if c = '\\' then "\\\\"
    else if c = '\'' then "\\'"
    else if byte < 0x20 || (0x7f ≤ byte && byte ≤ 0xa0) || byte == 0xad then
      "\\u\x7b" ++ lowerDigits byte.toNat ++ "\x7d"
    else c.toString
  "'" ++ body ++ "'"

def message : HexError → String
  | oddLength => "Odd number of digits"
  | invalidDigit byte position =>
    "Invalid character " ++ quoted byte ++ " at position " ++ Numeral.ofNat position

end HexError

namespace Hex

def digit (n : Nat) : UInt8 := UInt8.ofNat (if n < 10 then 48 + n else 87 + n)

def digitValue? (b : UInt8) : Option Nat :=
  if 48 ≤ b ∧ b ≤ 57 then some (b.toNat - 48)
  else if 97 ≤ b ∧ b ≤ 102 then some (b.toNat - 87)
  else if 65 ≤ b ∧ b ≤ 70 then some (b.toNat - 55)
  else none

/-- Each byte gives its high digit, then its low digit. -/
def digits (bytes : Bytes) : Bytes :=
  bytes.flatMap (fun b => [digit (b.toNat / 16), digit (b.toNat % 16)])

/-- The digits of a byte string as text. -/
def encode (bytes : Bytes) : String :=
  String.ofList (Bytes.chars (digits bytes))

/-- Reads pairs of digits; `position` is where the first of them stands. -/
def readPairs (position : Nat) : Bytes → Except HexError Bytes
  | [] => .ok []
  | [_] => .error .oddLength
  | high :: low :: rest =>
    match digitValue? high, digitValue? low with
    | none, _ => .error (.invalidDigit high position)
    | some _, none => .error (.invalidDigit low (position + 1))
    | some h, some l => (readPairs (position + 2) rest).map (UInt8.ofNat (16 * h + l) :: ·)

/-- An odd number of bytes is reported before any invalid digit. -/
def decodeBytes (bytes : Bytes) : Except HexError Bytes :=
  if bytes.length % 2 = 1 then .error .oddLength else readPairs 0 bytes

def decode (s : String) : Except HexError Bytes := decodeBytes (Bytes.utf8 s)

@[simp] theorem length_digits (bytes : Bytes) : (digits bytes).length = 2 * bytes.length := by
  induction bytes with
  | nil => rfl
  | cons b bs ih =>
    simp only [digits, List.flatMap_cons, List.length_append, List.length_cons,
      List.length_nil] at ih ⊢
    omega

theorem digitValue?_digit {n : Nat} (h : n < 16) : digitValue? (digit n) = some n :=
  (by decide : ∀ n, n < 16 → digitValue? (digit n) = some n) n h

theorem readPairs_digits (position : Nat) (bytes : Bytes) :
    readPairs position (digits bytes) = .ok bytes := by
  induction bytes generalizing position with
  | nil => rfl
  | cons b bs ih =>
    have hb := b.toNat_lt
    have hbs := ih (position + 2)
    simp only [digits, List.flatMap_cons, List.cons_append, List.nil_append] at hbs ⊢
    simp only [readPairs, digitValue?_digit (show b.toNat / 16 < 16 by omega),
      digitValue?_digit (Nat.mod_lt b.toNat (by decide : 0 < 16)), hbs, Except.map]
    have : 16 * (b.toNat / 16) + b.toNat % 16 = b.toNat := by omega
    rw [this, UInt8.ofNat_toNat]

theorem decodeBytes_digits (bytes : Bytes) : decodeBytes (digits bytes) = .ok bytes := by
  simp [decodeBytes, readPairs_digits]

theorem digits_inj {a b : Bytes} (h : digits a = digits b) : a = b := by
  have ha := readPairs_digits 0 a
  rw [h, readPairs_digits] at ha
  exact (Except.ok.inj ha).symm

theorem encode_inj {a b : Bytes} (h : encode a = encode b) : a = b :=
  digits_inj (Bytes.chars_inj (String.ofList_injective h))

end Hex
end Conformance
