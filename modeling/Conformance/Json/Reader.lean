import Conformance.Json.Token

namespace Conformance.Json

/-- What may come next. -/
inductive Expect
  | value
  | valueOrEnd
  | itemEnd
  | keyOrEnd
  | key
  | colon
  deriving DecidableEq

/-- An open container with what it holds so far, in reverse. -/
inductive Frame
  | array (items : List Json)
  | object (fields : List (String × Json)) (key : String)

structure Reading where
  stack : List Frame := []
  expect : Expect := .value
  result : Option Json := none
  /-- More text follows the value. -/
  trailing : Bool := false

/-- Containers nest to this depth; a deeper one is not read. -/
def maxDepth : Nat := 127

namespace Reading

def finished (r : Reading) : Bool := r.result.isSome

/-- A value joins the innermost open container, or is the result. -/
def put (r : Reading) (v : Json) : Reading :=
  match r.stack with
  | [] => { r with result := some v }
  | .array items :: stack => { r with stack := .array (v :: items) :: stack, expect := .itemEnd }
  | .object fields key :: stack =>
    { r with stack := .object ((key, v) :: fields) "" :: stack, expect := .itemEnd }

def close (r : Reading) : Reading :=
  match r.stack with
  | [] => r
  | frame :: stack =>
    let v := match frame with
      | .array items => Json.array items.reverse
      | .object fields _ => Json.object fields.reverse
    { r with stack }.put (if stack.length < maxDepth then v else if v.uncut then .fault .unread else v)

/-- Closes everything open around a cut. -/
def cut (r : Reading) : Reading :=
  if r.finished then { r with trailing := true }
  else (Nat.repeat close r.stack.length (r.put (.fault .cut)))

def step (r : Reading) (t : Token) : Reading :=
  if r.finished then { r with trailing := true }
  else
    let awaitsValue := r.expect == .value || r.expect == .valueOrEnd
    match t with
    | .scalar v => if awaitsValue then r.put v else r.cut
    | .text s =>
      if awaitsValue then r.put (match s with | some s => .string s | none => .fault .unread)
      else if r.expect == .key || r.expect == .keyOrEnd then
        match s, r.stack with
        | some s, .object fields _ :: stack =>
          { r with stack := .object fields s :: stack, expect := .colon }
        | none, .object fields _ :: stack =>
          let fields := ("", Json.fault .misnamed) :: fields
          { r with stack := .object fields "" :: stack, expect := .colon }
        | _, _ => r.cut
      else r.cut
    | .leftBracket =>
      if awaitsValue then { r with stack := .array [] :: r.stack, expect := .valueOrEnd } else r.cut
    | .leftBrace =>
      if awaitsValue then { r with stack := .object [] "" :: r.stack, expect := .keyOrEnd } else r.cut
    | .rightBracket =>
      match r.stack with
      | .array _ :: _ => if r.expect == .valueOrEnd || r.expect == .itemEnd then r.close else r.cut
      | _ => r.cut
    | .rightBrace =>
      match r.stack with
      | .object _ _ :: _ => if r.expect == .keyOrEnd || r.expect == .itemEnd then r.close else r.cut
      | _ => r.cut
    | .comma =>
      match r.stack with
      | .array _ :: _ => if r.expect == .itemEnd then { r with expect := .value } else r.cut
      | .object _ _ :: _ => if r.expect == .itemEnd then { r with expect := .key } else r.cut
      | [] => r.cut
    | .colon => if r.expect == .colon then { r with expect := .value } else r.cut
    | .bad => r.cut

end Reading

/-- A text as far as it reads: its value, and whether more follows the value. -/
structure Document where
  value : Json
  trailing : Bool := false

def read (text : String) : Document :=
  let r := (tokens text.toList).foldl Reading.step {}
  let closed := if r.finished then r else r.cut
  { value := closed.result.getD (.fault .cut), trailing := r.trailing }

/-- The value of a text that is JSON throughout. -/
def read? (text : String) : Option Json :=
  let d := read text
  if d.trailing then none else d.value.normalize

end Conformance.Json
