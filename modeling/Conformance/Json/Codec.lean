import Conformance.Json.Reader
import Conformance.Json.Printer
import Conformance.Bytes.Base64
import Conformance.Text

namespace Conformance

namespace Json

/-- What a value looks like from outside. -/
inductive Shape
  | null
  | bool (b : Bool)
  | int (n : Int)
  | float (x : Binary64)
  | string (s : String)
  | sequence
  | map
  deriving DecidableEq, Repr

def Shape.describe : Shape → String
  | null => "null"
  | bool true => "boolean `true`"
  | bool false => "boolean `false`"
  | int n => "integer `" ++ Numeral.ofInt n ++ "`"
  | float x => "floating point `" ++ x.toText ++ "`"
  | string s => "string " ++ Text.quoted s
  | sequence => "sequence"
  | map => "map"

/-- Why a JSON value or text does not decode. -/
inductive DecodeError
  | missingField (name : String)
  | duplicateField (name : String)
  | wrongType (got : Shape) (want : String)
  | wrongValue (got : Shape) (want : String)
  | unknownVariant (name : String) (known : List String)
  | tooFewItems (count : Nat) (record : String) (fields : Nat)
  | tooManyItems (count : Nat)
  /-- The text inside a string is refused by the type it stands for. -/
  | refused (message : String)
  /-- The text is not JSON where it would have to be read. -/
  | malformed
  deriving DecidableEq, Repr

namespace DecodeError

def known : List String → String
  | [] => "there are no variants"
  | [a] => "expected `" ++ a ++ "`"
  | [a, b] => "expected `" ++ a ++ "` or `" ++ b ++ "`"
  | names => "expected one of " ++ ", ".intercalate (names.map (fun n => "`" ++ n ++ "`"))

def message : DecodeError → String
  | missingField name => "missing field `" ++ name ++ "`"
  | duplicateField name => "duplicate field `" ++ name ++ "`"
  | wrongType got want => "invalid type: " ++ got.describe ++ ", expected " ++ want
  | wrongValue got want => "invalid value: " ++ got.describe ++ ", expected " ++ want
  | unknownVariant name names => "unknown variant `" ++ name ++ "`, " ++ known names
  | tooFewItems n record fields =>
    "invalid length " ++ Numeral.ofNat n ++ ", expected struct " ++ record ++ " with " ++
      Numeral.ofNat fields ++ (if fields = 1 then " element" else " elements")
  | tooManyItems n => "invalid length " ++ Numeral.ofNat n ++ ", expected fewer elements in array"
  | refused text => text
  | malformed => "malformed text"

/-- Whether the fault lies in the text and not in the shape of what it says. -/
def isTextual : DecodeError → Bool
  | tooManyItems _ => true
  | malformed => true
  | _ => false

end DecodeError

def shape? : Json → Option Shape
  | null => some .null
  | bool b => some (.bool b)
  | int n => some (.int n)
  | float x => some (.float x)
  | string s => some (.string s)
  | array _ => some .sequence
  | object _ => some .map
  | fault _ => none

/-- The error of a value that is not what is wanted. -/
def unlike (v : Json) (want : String) : DecodeError :=
  match v.shape? with
  | some s => .wrongType s want
  | none => .malformed

end Json

section MapError
variable {ε ε' α : Type}

@[simp] theorem mapError_ok (f : ε → ε') (x : α) : (Except.ok x : Except ε α).mapError f = .ok x :=
  rfl

@[simp] theorem mapError_error (f : ε → ε') (e : ε) :
    (Except.error e : Except ε α).mapError f = .error (f e) := rfl

end MapError

open Json (DecodeError)

/-- Writes the values of a type as JSON and reads them back. Reading is more lenient than writing. -/
structure Codec (α : Type) where
  encode : α → Json
  decode : Json → Except DecodeError α

namespace Codec

/-- The value of a text that is JSON throughout and has the shape. -/
def read {α : Type} (c : Codec α) (text : String) : Except DecodeError α :=
  let d := Json.read text
  match c.decode d.value with
  | .error e => .error e
  | .ok x => if d.trailing then .error .malformed else .ok x

/-- The value with this shape of a JSON value that was stored before it was looked at. -/
def ofOpaque {α : Type} (c : Codec α) (v : Opaque) : Except DecodeError α := c.decode v.json

def bool : Codec Bool where
  encode b := .bool b
  decode
    | .bool b => .ok b
    | v => .error (v.unlike "a boolean")

def string : Codec String where
  encode s := .string s
  decode
    | .string s => .ok s
    | v => .error (v.unlike "a string")

/-- Integers from `low` to `high`. -/
def within (low high : Int) (want : String) : Codec Int where
  encode n := .int n
  decode
    | .int n => if low ≤ n ∧ n ≤ high then .ok n else .error (.wrongValue (.int n) want)
    | v => .error (v.unlike want)

def map {α β : Type} (c : Codec α) (unpack : β → α) (pack : α → β) : Codec β where
  encode y := c.encode (unpack y)
  decode v := (c.decode v).map pack

def uint64 : Codec UInt64 :=
  (within 0 18446744073709551615 "u64").map (fun n => n.toNat) (fun n => UInt64.ofNat n.toNat)

def uint32 : Codec UInt32 :=
  (within 0 4294967295 "u32").map (fun n => n.toNat) (fun n => UInt32.ofNat n.toNat)

def uint16 : Codec UInt16 :=
  (within 0 65535 "u16").map (fun n => n.toNat) (fun n => UInt16.ofNat n.toNat)

def int64 : Codec Int64 :=
  (within (-9223372036854775808) 9223372036854775807 "i64").map Int64.toInt Int64.ofInt

/-- A string that a reader of its own turns into a value. -/
def text {α : Type} (write : α → String) (parse : String → Except String α) : Codec α where
  encode x := .string (write x)
  decode
    | .string s =>
      match parse s with
      | .ok x => .ok x
      | .error e => .error (.refused e)
    | v => .error (v.unlike "a string")

def base64Failure (context : String) (e : Base64Error) : String :=
  "Failed to decode " ++ context ++ " from base64: " ++ e.message

/-- Bytes as base64 text. -/
def bytes : Codec Bytes :=
  text Base64.encode (fun s => (Base64.decode s).mapError (base64Failure "byte field"))

def decodeItems {α : Type} (decode : Json → Except DecodeError α) :
    List Json → Except DecodeError (List α)
  | [] => .ok []
  | v :: vs =>
    match decode v with
    | .error e => .error e
    | .ok x => (decodeItems decode vs).map (x :: ·)

def list {α : Type} (c : Codec α) : Codec (List α) where
  encode xs := .array (xs.map c.encode)
  decode
    | .array items => decodeItems c.decode items
    | v => .error (v.unlike "a sequence")

/-- Null stands for nothing. -/
def option {α : Type} (c : Codec α) : Codec (Option α) where
  encode
    | none => .null
    | some x => c.encode x
  decode
    | .null => .ok none
    | v => (c.decode v).map some

/-- Any JSON, kept in normal form. -/
def any : Codec Opaque where
  encode v := v.json
  decode v :=
    match Opaque.ofJson? v with
    | some x => .ok x
    | none => .error .malformed

def choose {α : Type} (names : List (String × α)) (name : String) : Except DecodeError α :=
  match names.find? (fun n => n.1 = name) with
  | some n => .ok n.2
  | none => .error (.unknownVariant name (names.map Prod.fst))

/-- One of a list of named values. -/
def choice {α : Type} (names : List (String × α)) (nameOf : α → String) : Codec α where
  encode x := .string (nameOf x)
  decode
    | .string s => choose names s
    | .object [(name, v)] =>
      match choose names name with
      | .error e => .error e
      | .ok x =>
        match v with
        | .null => .ok x
        | v => .error (v.unlike "unit")
    | .object _ => .error (.wrongValue .map "map with a single key")
    | v => .error (v.unlike "string or map")

end Codec

/-- A field of a record. -/
structure Field (α : Type) where
  name : String
  codec : Codec α
  /-- What a field left out of an object is. -/
  absent : Option α := none
  /-- What a field beyond the end of a list is. -/
  beyond : Option α := none
  /-- Values for which the field is not written. -/
  hidden : α → Bool := fun _ => false

/-- The fields of a record in order; the type lists theirs. -/
inductive Fields : Type → Type 1
  | nil : Fields Unit
  | cons {α τ : Type} (field : Field α) (rest : Fields τ) : Fields (α × τ)

namespace Fields

/-- A field that has to be there. -/
def required {α τ : Type} (name : String) (codec : Codec α) (rest : Fields τ) : Fields (α × τ) :=
  cons { name, codec } rest

/-- A field that may be left out. -/
def defaulted {α τ : Type} (name : String) (codec : Codec α) (value : α) (rest : Fields τ) :
    Fields (α × τ) :=
  cons { name, codec, absent := some value, beyond := some value } rest

/-- A field that an object may leave out, but not a list. -/
def optional {α τ : Type} (name : String) (codec : Codec α) (rest : Fields τ) :
    Fields (Option α × τ) :=
  cons { name, codec := codec.option, absent := some none } rest

/-- A field that is written only when it has a value. -/
def sparse {α τ : Type} (name : String) (codec : Codec α) (rest : Fields τ) :
    Fields (Option α × τ) :=
  cons { name, codec := codec.option, absent := some none, beyond := some none,
         hidden := Option.isNone } rest

def count : {τ : Type} → Fields τ → Nat
  | _, nil => 0
  | _, cons _ rest => rest.count + 1

def names : {τ : Type} → Fields τ → List String
  | _, nil => []
  | _, cons f rest => f.name :: rest.names

def encode : {τ : Type} → Fields τ → τ → List (String × Json)
  | _, nil, _ => []
  | _, cons f rest, (x, xs) =>
    if f.hidden x then rest.encode xs else (f.name, f.codec.encode x) :: rest.encode xs

/-- The fields read so far. -/
def Slots : {τ : Type} → Fields τ → Type
  | _, nil => Unit
  | _, cons (α := α) _ rest => Option α × rest.Slots

def noSlots : {τ : Type} → (fs : Fields τ) → fs.Slots
  | _, nil => ()
  | _, cons _ rest => (none, rest.noSlots)

/-- Reads the field of a name, or nothing when no field has it. -/
def fill : {τ : Type} → (fs : Fields τ) → fs.Slots → String → Json →
    Except DecodeError (Option fs.Slots)
  | _, nil, _, _, _ => .ok none
  | _, cons (α := α) f rest, slots, name, v =>
    let (slot, slots) : Option α × rest.Slots := slots
    if f.name = name then
      if slot.isSome then .error (.duplicateField name)
      else
        match f.codec.decode v with
        | .ok x => .ok (some (some x, slots))
        | .error e => .error e
    else
      match rest.fill slots name v with
      | .ok (some slots) => .ok (some (slot, slots))
      | .ok none => .ok none
      | .error e => .error e

/-- Fields are read in the order they come; unknown ones are skipped if their names are read. -/
def fillAll {τ : Type} (fs : Fields τ) (slots : fs.Slots) : List (String × Json) →
    Except DecodeError fs.Slots
  | [] => .ok slots
  | (name, v) :: rest =>
    match fs.fill slots name v with
    | .error e => .error e
    | .ok (some slots) => fs.fillAll slots rest
    | .ok none =>
      match v with
      | .fault .misnamed => .error .malformed
      | v => if v.uncut then fs.fillAll slots rest else .error .malformed

/-- The record, if every field without a value of its own was read. -/
def complete : {τ : Type} → (fs : Fields τ) → fs.Slots → Except DecodeError τ
  | _, nil, _ => .ok ()
  | _, cons (α := α) f rest, slots =>
    let (slot, slots) : Option α × rest.Slots := slots
    match slot.or f.absent with
    | none => .error (.missingField f.name)
    | some x => (rest.complete slots).map (x, ·)

/-- The record of a list of its fields. -/
def ofItems (record : String) (total : Nat) : {τ : Type} → Fields τ → Nat → List Json →
    Except DecodeError (τ × List Json)
  | _, nil, _, items => .ok ((), items)
  | _, cons f rest, n, [] =>
    match f.beyond with
    | none => .error (.tooFewItems n record total)
    | some x => (ofItems record total rest (n + 1) []).map (fun (xs, items) => ((x, xs), items))
  | _, cons f rest, n, v :: items =>
    match f.codec.decode v with
    | .error e => .error e
    | .ok x =>
      (ofItems record total rest (n + 1) items).map (fun (xs, items) => ((x, xs), items))

def decode {τ : Type} (record : String) (fs : Fields τ) : Json → Except DecodeError τ
  | .object fields =>
    match fs.fillAll fs.noSlots fields with
    | .ok slots => fs.complete slots
    | .error e => .error e
  | .array items =>
    match ofItems record fs.count fs 0 items with
    | .ok (xs, []) => .ok xs
    | .ok (_, _ :: _) => .error (.tooManyItems items.length)
    | .error e => .error e
  | v => .error (v.unlike ("struct " ++ record))

end Fields

/-- A record of named fields. -/
def Codec.record {α τ : Type} (name : String) (fs : Fields τ) (unpack : α → τ) (pack : τ → α) :
    Codec α where
  encode x := .object (fs.encode (unpack x))
  decode v := (fs.decode name v).map pack

end Conformance
