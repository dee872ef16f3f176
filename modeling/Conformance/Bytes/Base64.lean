import Conformance.Bytes
import Conformance.Number.Numeral

namespace Conformance

/-- Why a text is not padded base64. Offsets count bytes from zero. -/
inductive Base64Error
  | invalidSymbol (byte : UInt8) (offset : Nat)
  | invalidLength (length : Nat)
  | invalidLastSymbol (byte : UInt8) (offset : Nat)
  | invalidPadding
  deriving DecidableEq, Repr

namespace Base64Error

def message : Base64Error → String
  | invalidSymbol b n =>
    "Invalid symbol " ++ Numeral.ofNat b.toNat ++ ", offset " ++ Numeral.ofNat n ++ "."
  | invalidLength n => "Invalid input length: " ++ Numeral.ofNat n
  | invalidLastSymbol b n =>
    "Invalid last symbol " ++ Numeral.ofNat b.toNat ++ ", offset " ++ Numeral.ofNat n ++ "."
  | invalidPadding => "Invalid padding"

end Base64Error

namespace Base64

def pad : UInt8 := 61

def symbol (n : Nat) : UInt8 :=
  UInt8.ofNat <|
    if n < 26 then 65 + n
    else if n < 52 then 71 + n
    else if n < 62 then n - 4
    else if n = 62 then 43 else 47

def symbolValue? (b : UInt8) : Option Nat :=
  if 65 ≤ b ∧ b ≤ 90 then some (b.toNat - 65)
  else if 97 ≤ b ∧ b ≤ 122 then some (b.toNat - 71)
  else if 48 ≤ b ∧ b ≤ 57 then some (b.toNat + 4)
  else if b = 43 then some 62
  else if b = 47 then some 63
  else none

/-- Three bytes become four symbols; a rest of one or two bytes is padded. -/
def symbols : Bytes → Bytes
  | [] => []
  | [a] =>
    let n := a.toNat * 16
    [symbol (n / 64), symbol (n % 64), pad, pad]
  | [a, b] =>
    let n := (a.toNat * 256 + b.toNat) * 4
    [symbol (n / 4096), symbol (n / 64 % 64), symbol (n % 64), pad]
  | a :: b :: c :: rest =>
    let n := (a.toNat * 256 + b.toNat) * 256 + c.toNat
    symbol (n / 262144) :: symbol (n / 4096 % 64) :: symbol (n / 64 % 64) :: symbol (n % 64) ::
      symbols rest

def encode (bytes : Bytes) : String :=
  String.ofList (Bytes.chars (symbols bytes))

/-- The bytes of four sextets. -/
def ofSextets (a b c d : Nat) : Bytes :=
  let n := ((a * 64 + b) * 64 + c) * 64 + d
  [UInt8.ofNat (n / 65536), UInt8.ofNat (n / 256), UInt8.ofNat n]

/-- The values of the symbols before the padding, with the length of the padding. Padding may
follow two symbols at least, and no symbol follows it. -/
def readGroup (start : Nat) : (read padding : Nat) → Bytes → Except Base64Error (List Nat × Nat)
  | _, padding, [] => .ok ([], padding)
  | read, padding, b :: bs =>
    if b = pad then
      if read + padding < 2 then .error (.invalidSymbol b (start + read + padding))
      else readGroup start read (padding + 1) bs
    else if padding > 0 then .error (.invalidSymbol pad (start + read))
    else
      match symbolValue? b with
      | none => .error (.invalidSymbol b (start + read))
      | some v => (readGroup start (read + 1) 0 bs).map (fun (vs, n) => (v :: vs, n))

/-- The last group: two symbols at least, padded to four, with no bits beyond the last byte. -/
def readLast (start : Nat) (bs : Bytes) : Except Base64Error Bytes :=
  match readGroup start 0 0 bs with
  | .error e => .error e
  | .ok (vs, padding) =>
    if vs.length < 2 then .error (.invalidLength (start + vs.length))
    else if (vs.length + padding) % 4 ≠ 0 then .error .invalidPadding
    else
      let last := bs.getD (vs.length - 1) 0
      match vs with
      | [a, b] =>
        if b % 16 ≠ 0 then .error (.invalidLastSymbol last (start + 1))
        else .ok ((ofSextets a b 0 0).take 1)
      | [a, b, c] =>
        if c % 4 ≠ 0 then .error (.invalidLastSymbol last (start + 2))
        else .ok ((ofSextets a b c 0).take 2)
      | a :: b :: c :: d :: _ => .ok (ofSextets a b c d)
      | _ => .ok []

/-- Reads whole groups from the left; the last one may be padded. -/
def readGroups (start : Nat) : Bytes → Except Base64Error Bytes
  | a :: b :: c :: d :: e :: rest =>
    match symbolValue? a, symbolValue? b, symbolValue? c, symbolValue? d with
    | none, _, _, _ => .error (.invalidSymbol a start)
    | _, none, _, _ => .error (.invalidSymbol b (start + 1))
    | _, _, none, _ => .error (.invalidSymbol c (start + 2))
    | _, _, _, none => .error (.invalidSymbol d (start + 3))
    | some va, some vb, some vc, some vd =>
      (readGroups (start + 4) (e :: rest)).map (ofSextets va vb vc vd ++ ·)
  | [] => .ok []
  | bs => readLast start bs

/-- A single byte after whole groups is reported first unless it is a symbol or padding. -/
def decodeBytes (bs : Bytes) : Except Base64Error Bytes :=
  match bs.getLast? with
  | some last =>
    if bs.length % 4 = 1 ∧ last ≠ pad ∧ symbolValue? last = none then
      .error (.invalidSymbol last (bs.length - 1))
    else readGroups 0 bs
  | none => .ok []

def decode (s : String) : Except Base64Error Bytes := decodeBytes (Bytes.utf8 s)

end Base64
end Conformance
