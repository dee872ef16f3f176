import Conformance.Json.Codec

namespace Conformance

/-- Seconds since 1970 began, without leap seconds. Nanoseconds of a second or more belong to a
leap second. -/
structure Instant where
  seconds : Int
  nanos : Nat := 0
  deriving DecidableEq, Repr, Inhabited

namespace Instant

inductive Error
  | tooShort
  | invalid
  | outOfRange
  | tooLong
  | impossible
  deriving DecidableEq, Repr

def Error.message : Error → String
  | tooShort => "premature end of input"
  | invalid => "input contains invalid characters"
  | outOfRange => "input is out of range"
  | tooLong => "trailing input"
  | impossible => "no possible date and time matching input"

/-- The number of days from the start of 1970 to a date of the Gregorian calendar. Years are taken
to begin in March, so that a leap day is the last day of its year. -/
def daysOfDate (year : Int) (month day : Nat) : Int :=
  let y := if month ≤ 2 then year - 1 else year
  let era := y.fdiv 400
  let yearOfEra := y - era * 400
  let monthFromMarch : Int := (month + 9) % 12
  let dayOfYear := (153 * monthFromMarch + 2) / 5 + day - 1
  let dayOfEra := yearOfEra * 365 + yearOfEra / 4 - yearOfEra / 100 + dayOfYear
  era * 146097 + dayOfEra - 719468

/-- Year, month and day of a number of days from the start of 1970. -/
def dateOfDays (days : Int) : Int × Nat × Nat :=
  let z := days + 719468
  let era := z.fdiv 146097
  let dayOfEra := (z - era * 146097).toNat
  let yearOfEra := (dayOfEra - dayOfEra / 1460 + dayOfEra / 36524 - dayOfEra / 146096) / 365
  let dayOfYear := dayOfEra - (365 * yearOfEra + yearOfEra / 4 - yearOfEra / 100)
  let monthFromMarch := (5 * dayOfYear + 2) / 153
  let day := dayOfYear - (153 * monthFromMarch + 2) / 5 + 1
  let month := if monthFromMarch < 10 then monthFromMarch + 3 else monthFromMarch - 9
  let year := (yearOfEra : Int) + era * 400
  (if month ≤ 2 then year + 1 else year, month, day)

def isLeap (year : Int) : Bool := year % 4 == 0 && (year % 100 != 0 || year % 400 == 0)

def daysInMonth (year : Int) (month : Nat) : Nat :=
  if month = 2 then if isLeap year then 29 else 28
  else if month = 4 ∨ month = 6 ∨ month = 9 ∨ month = 11 then 30 else 31

def minYear : Int := -262143

def maxYear : Int := 262142

/-- A number of one to `width` digits that fits a signed word. -/
def number (width : Nat) (cs : List Char) : Except Error (Nat × List Char) :=
  let ds := (cs.take width).takeWhile (fun c => '0' ≤ c && c ≤ '9')
  if cs.isEmpty then .error .tooShort
  else if ds.isEmpty then .error .invalid
  else
    let n := ds.foldl (fun n c => n * 10 + (c.toNat - 48)) 0
    if n ≤ 9223372036854775807 then .ok (n, cs.drop ds.length) else .error .outOfRange

def literal (c : Char) : List Char → Except Error (List Char)
  | [] => .error .tooShort
  | d :: cs => if d = c then .ok cs else .error .invalid

/-- A number of at most two digits, blanks before it allowed, within limits. -/
def part (low high : Nat) (cs : List Char) : Except Error (Nat × List Char) := do
  let (n, cs) ← number 2 (Text.trimStart cs)
  if low ≤ n ∧ n ≤ high then pure (n, cs) else .error .outOfRange

/-- Four digits at most, or any number of them after a sign. -/
def year (cs : List Char) : Except Error (Int × List Char) := do
  let cs := Text.trimStart cs
  let (y, cs) ← match cs with
    | '-' :: rest => do
      let (n, rest) ← number rest.length rest
      pure (-(n : Int), rest)
    | '+' :: rest => do
      let (n, rest) ← number rest.length rest
      pure ((n : Int), rest)
    | _ => do
      let (n, rest) ← number 4 cs
      pure ((n : Int), rest)
  if -2147483648 ≤ y ∧ y ≤ 2147483647 then pure (y, cs) else .error .outOfRange

/-- Digits after the point beyond the ninth do not count. -/
def fraction : List Char → Except Error (Nat × List Char)
  | '.' :: cs => do
    let (n, rest) ← number 9 cs
    let places := cs.length - rest.length
    pure (n * Nat.pow 10 (9 - places), rest.dropWhile (fun c => '0' ≤ c && c ≤ '9'))
  | cs => .ok (0, cs)

def isDigit (c : Char) : Bool := '0' ≤ c && c ≤ '9'

def twoDigits (cs : List Char) : Except Error (Char × Char × List Char) :=
  match cs with
  | a :: b :: rest => .ok (a, b, rest)
  | [a] => if a.utf8Size < 2 then .error .tooShort else .error .invalid
  | [] => .error .tooShort

/-- Hours and minutes after a sign, in seconds. Colons and blanks between them are skipped. -/
def signedOffset (sign : Int) (cs : List Char) : Except Error (Int × List Char) := do
  let (a, b, cs) ← twoDigits cs
  if !(isDigit a && isDigit b) then .error .invalid
  else
    let hours := (a.toNat - 48) * 10 + (b.toNat - 48)
    let (c, d, cs) ← twoDigits (cs.dropWhile (fun c => c = ':' || isBlank c))
    if !(isDigit c && isDigit d) then .error .invalid
    else if '6' ≤ c then .error .outOfRange
    else
      let minutes := (c.toNat - 48) * 10 + (d.toNat - 48)
      pure (sign * (hours * 3600 + minutes * 60), cs)

/-- The distance from UTC in seconds. -/
def offset (cs : List Char) : Except Error (Int × List Char) :=
  match cs with
  | u :: t :: c :: rest =>
    if [u, t, c].map Char.toLower = ['u', 't', 'c'] then .ok (0, rest) else zulu cs
  | _ => zulu cs
where
  /-- An offset that is not the letters UTC. -/
  zulu : List Char → Except Error (Int × List Char)
    | [] => .error .tooShort
    | 'Z' :: rest => .ok (0, rest)
    | 'z' :: rest => .ok (0, rest)
    | '+' :: rest => signedOffset 1 rest
    | '-' :: rest => signedOffset (-1) rest
    | '−' :: rest => signedOffset (-1) rest
    | _ :: _ => .error .invalid

/-- The instant of a local date and time. -/
def ofLocal (year : Int) (month day hour minute second nanos : Nat) (offset : Int) :
    Except Error Instant :=
  if year < minYear ∨ maxYear < year ∨ daysInMonth year month < day then .error .outOfRange
  else if offset ≤ -86400 ∨ 86400 ≤ offset then .error .outOfRange
  else
    let leap := second = 60
    let seconds : Int :=
      daysOfDate year month day * 86400 + hour * 3600 + minute * 60 +
        (if leap then 59 else second) - offset
    let y := (dateOfDays (seconds.fdiv 86400)).1
    if y < minYear ∨ maxYear < y then .error .impossible
    else .ok ⟨seconds, if leap then 1000000000 + nanos else nanos⟩

def parse (s : String) : Except Error Instant := do
  let (year, cs) ← year s.toList
  let cs ← literal '-' (Text.trimStart cs)
  let (month, cs) ← part 1 12 cs
  let cs ← literal '-' (Text.trimStart cs)
  let (day, cs) ← part 1 31 cs
  let cs ← match cs with
    | [] => .error .tooShort
    | c :: cs => if c = 't' ∨ c = 'T' ∨ c = ' ' then pure cs else .error .invalid
  let (hour, cs) ← part 0 23 cs
  let cs ← literal ':' (Text.trimStart cs)
  let (minute, cs) ← part 0 59 cs
  let cs ← literal ':' (Text.trimStart cs)
  let (second, cs) ← part 0 60 cs
  let (nanos, cs) ← fraction cs
  let (offset, cs) ← offset (Text.trimStart cs)
  if (Text.trimStart cs).isEmpty then ofLocal year month day hour minute second nanos offset
  else .error .tooLong

/-- A number with leading zeros up to a width. -/
def padded (width n : Nat) : String :=
  let ds := Numeral.digits n
  String.ofList (List.replicate (width - ds.length) '0' ++ ds)

/-- Four digits, or a sign and at least five. -/
def yearText (y : Int) : String :=
  if 0 ≤ y ∧ y ≤ 9999 then padded 4 y.natAbs
  else (if y < 0 then "-" else "+") ++ padded 4 y.natAbs

/-- No digits, or as few of three, six and nine as say all. -/
def fractionText (nanos : Nat) : String :=
  if nanos = 0 then ""
  else if nanos % 1000000 = 0 then "." ++ padded 3 (nanos / 1000000)
  else if nanos % 1000 = 0 then "." ++ padded 6 (nanos / 1000)
  else "." ++ padded 9 nanos

def toText (t : Instant) : String :=
  let days := t.seconds.fdiv 86400
  let ofDay := (t.seconds - days * 86400).toNat
  let (year, month, day) := dateOfDays days
  let leap := t.nanos / 1000000000
  yearText year ++ "-" ++ padded 2 month ++ "-" ++ padded 2 day ++ "T" ++
    padded 2 (ofDay / 3600) ++ ":" ++ padded 2 (ofDay / 60 % 60) ++ ":" ++
    padded 2 (ofDay % 60 + leap) ++ fractionText (t.nanos % 1000000000) ++ "Z"

def codec : Codec Instant where
  encode t := .string t.toText
  decode
    | .string s =>
      match parse s with
      | .ok t => .ok t
      | .error e => .error (.refused e.message)
    | v => .error (v.unlike "an RFC 3339 formatted date and time string")

end Instant
end Conformance
