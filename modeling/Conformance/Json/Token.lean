import Conformance.Json
import Conformance.Number.Numeral

namespace Conformance.Json

inductive Token
  | leftBracket
  | rightBracket
  | leftBrace
  | rightBrace
  | comma
  | colon
  | scalar (v : Json)
  /-- A string; nothing when one of its escapes is half of a character. -/
  | text (s : Option String)
  | bad
  deriving Inhabited

namespace Token

def hexValue? (c : Char) : Option Nat :=
  if '0' ≤ c ∧ c ≤ '9' then some (c.toNat - 48)
  else if 'a' ≤ c ∧ c ≤ 'f' then some (c.toNat - 87)
  else if 'A' ≤ c ∧ c ≤ 'F' then some (c.toNat - 55)
  else none

def hex4? (a b c d : Char) : Option Nat := do
  pure ((((← hexValue? a) * 16 + (← hexValue? b)) * 16 + (← hexValue? c)) * 16 + (← hexValue? d))

/-- The character a one-letter escape stands for. -/
def escaped? : Char → Option Char
  | '"' => some '"'
  | '\\' => some '\\'
  | '/' => some '/'
  | 'b' => some '\x08'
  | 'f' => some '\x0c'
  | 'n' => some '\n'
  | 'r' => some '\r'
  | 't' => some '\t'
  | _ => none

def isHigh (n : Nat) : Bool := 0xd800 ≤ n && n ≤ 0xdbff

def isLow (n : Nat) : Bool := 0xdc00 ≤ n && n ≤ 0xdfff

/-- The character of two halves. -/
def joined (high low : Nat) : Char := Char.ofNat (0x10000 + (high - 0xd800) * 1024 + (low - 0xdc00))

/-- What is read of a string: its characters in reverse, and the first half of a character that
waits for its second. The characters are lost at a half that stands alone. -/
structure Partial where
  chars : Option (List Char) := some []
  half : Option Nat := none

def Partial.put (p : Partial) (c : Char) : Partial :=
  { chars := if p.half.isSome then none else p.chars.map (c :: ·) }

def Partial.putUnit (p : Partial) (n : Nat) : Partial :=
  if isHigh n then { chars := if p.half.isSome then none else p.chars, half := some n }
  else if isLow n then
    match p.half with
    | some high => { chars := p.chars.map (joined high n :: ·) }
    | none => { chars := none }
  else p.put (Char.ofNat n)

def Partial.whole (p : Partial) : Option (List Char) :=
  if p.half.isSome then none else p.chars.map List.reverse

/-- A string up to its closing quote, and what follows. -/
def string? (p : Partial) : List Char → Option (Option (List Char) × List Char)
  | [] => none
  | '"' :: rest => some (p.whole, rest)
  | '\\' :: 'u' :: a :: b :: c :: d :: rest =>
    match hex4? a b c d with
    | none => none
    | some n => string? (p.putUnit n) rest
  | '\\' :: c :: rest =>
    match escaped? c with
    | none => none
    | some e => string? (p.put e) rest
  | c :: rest => if c.toNat < 0x20 then none else string? (p.put c) rest

/-- The longest run of digits and what follows. -/
def digitRun (cs : List Char) : List Char × List Char := cs.span (fun c => '0' ≤ c && c ≤ '9')

def maxWord : Nat := 18446744073709551615

/-- Digits are added to a significand while it fits a word. -/
def accumulate (significand : Nat) : List Char → Nat × List Char
  | [] => (significand, [])
  | c :: cs =>
    let next := significand * 10 + (c.toNat - 48)
    if next ≤ maxWord then accumulate next cs else (significand, c :: cs)

/-- Digits that no longer fit the significand count as zeros before the point and as nothing
behind it. -/
def float? (negative : Bool) (whole fraction : List Char) (exponent : Int) : Option Binary64 :=
  let w := accumulate 0 whole
  let f := accumulate w.1 fraction
  let places := fraction.length - f.2.length
  Binary64.ofScientific negative f.1 (exponent + w.2.length - places)

def digitsValue (ds : List Char) : Nat := ds.foldl (fun n c => n * 10 + (c.toNat - 48)) 0

/-- A number without fraction and exponent is an integer if it fits a word; minus zero does not. -/
def numberValue (negative : Bool) (whole : List Char) (fraction : List Char) (exponent : Option Int)
    : Json :=
  let asFloat :=
    match float? negative whole fraction (exponent.getD 0) with
    | some x => Json.float x
    | none => Json.fault .unread
  if fraction.isEmpty && exponent.isNone then
    let n := digitsValue whole
    if negative then if 0 < n ∧ n ≤ 9223372036854775808 then .int (-Int.ofNat n) else asFloat
    else if n ≤ maxWord then .int n else asFloat
  else asFloat

def fraction? : List Char → Option (List Char × List Char)
  | '.' :: cs =>
    let (ds, rest) := digitRun cs
    if ds.isEmpty then none else some (ds, rest)
  | cs => some ([], cs)

def exponentDigits? (sign : Int) (cs : List Char) : Option (Option Int × List Char) :=
  let (ds, rest) := digitRun cs
  if ds.isEmpty then none else some (some (sign * digitsValue ds), rest)

def exponent? : List Char → Option (Option Int × List Char)
  | c :: cs =>
    if c = 'e' ∨ c = 'E' then
      match cs with
      | '+' :: cs => exponentDigits? 1 cs
      | '-' :: cs => exponentDigits? (-1) cs
      | cs => exponentDigits? 1 cs
    else some (none, c :: cs)
  | [] => some (none, [])

/-- A number whose whole part is zero or starts with another digit. -/
def unsigned? (negative : Bool) (cs : List Char) : Option (Json × List Char) := do
  let (whole, rest) := digitRun cs
  if whole.isEmpty || (whole.head? == some '0' && whole.length > 1) then none
  else
    let (fraction, rest) ← fraction? rest
    let (exponent, rest) ← exponent? rest
    pure (numberValue negative whole fraction exponent, rest)

def isSpace (c : Char) : Bool := c == ' ' || c == '\n' || c == '\t' || c == '\r'

/-- The token that starts with a character, and what follows it; nothing at a blank. -/
def next (c : Char) (rest : List Char) : Option Token × List Char :=
  let value (r : Option (Json × List Char)) : Option Token × List Char :=
    match r with
    | some (v, rest) => (some (.scalar v), rest)
    | none => (some .bad, [])
  if isSpace c then (none, rest)
  else if c = '[' then (some .leftBracket, rest)
  else if c = ']' then (some .rightBracket, rest)
  else if c = '\x7b' then (some .leftBrace, rest)
  else if c = '\x7d' then (some .rightBrace, rest)
  else if c = ',' then (some .comma, rest)
  else if c = ':' then (some .colon, rest)
  else if c = '"' then
    match string? {} rest with
    | some (s, rest) => (some (.text (s.map String.ofList)), rest)
    | none => (some .bad, [])
  else if c = '-' then value (unsigned? true rest)
  else if '0' ≤ c ∧ c ≤ '9' then value (unsigned? false (c :: rest))
  else
    match c, rest with
    | 'n', 'u' :: 'l' :: 'l' :: rest => (some (.scalar .null), rest)
    | 't', 'r' :: 'u' :: 'e' :: rest => (some (.scalar (.bool true)), rest)
    | 'f', 'a' :: 'l' :: 's' :: 'e' :: rest => (some (.scalar (.bool false)), rest)
    | _, _ => (some .bad, [])

end Token

/-- The tokens of a text; `fuel` is its length, which bounds their number. -/
def tokensWithin : (fuel : Nat) → List Token → List Char → List Token
  | _, done, [] => done.reverse
  | 0, done, _ :: _ => done.reverse
  | fuel + 1, done, c :: cs =>
    match Token.next c cs with
    | (none, rest) => tokensWithin fuel done rest
    | (some t, rest) => tokensWithin fuel (t :: done) rest

def tokens (cs : List Char) : List Token := tokensWithin cs.length [] cs

end Conformance.Json
