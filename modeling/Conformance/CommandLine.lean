import Conformance.Receipt
import Conformance.Number.Numeral
import Conformance.Failure
import Conformance.Scenario.Catalogue

namespace Conformance

structure CommandLine where
  host : Option String := none
  port : Option UInt16 := none
  logLevel : Option String := none
  /-- The flags given. -/
  flags : List String := []
  suites : List String := []
  deriving DecidableEq, Repr, Inhabited

namespace CommandLine

/-- Why a command line is not carried out. -/
inductive Refusal
  | displayHelp
  | displayVersion
  | unknownArgument
  /-- An option without its value. -/
  | invalidValue
  /-- A flag with a value. -/
  | tooManyValues
  /-- A value that its option cannot take. -/
  | valueValidation
  /-- An option or a flag given twice. -/
  | argumentConflict
  deriving DecidableEq, Repr

namespace Refusal

def name : Refusal → String
  | displayHelp => "DisplayHelp"
  | displayVersion => "DisplayVersion"
  | unknownArgument => "UnknownArgument"
  | invalidValue => "InvalidValue"
  | tooManyValues => "TooManyValues"
  | valueValidation => "ValueValidation"
  | argumentConflict => "ArgumentConflict"

end Refusal

/-- An option that takes a value. -/
inductive Opt
  | host
  | port
  | logLevel
  | suite
  deriving DecidableEq, Repr

def options : List (String × Opt) :=
  [("host", .host), ("port", .port), ("log-level", .logLevel), ("suite", .suite)]

def flagNames : List String :=
  ["no-check-gas", "no-check-exit-code", "no-check-return-value", "no-check-state-root"]

/-- What to do instead of serving. -/
def requests : List (String × Refusal) :=
  [("help", .displayHelp), ("version", .displayVersion)]

def shortRequests : List (Char × Refusal) := [('h', .displayHelp), ('V', .displayVersion)]

/-- A port is a whole number in range, with a sign or without. -/
def readPort (s : String) : Except Refusal UInt16 :=
  match Numeral.readInt 9223372036854775807 s.toList with
  | .ok n => if 0 ≤ n ∧ n ≤ 65535 then .ok (UInt16.ofNat n.toNat) else .error .valueValidation
  | .error _ => .error .valueValidation

/-- Gives an option its value. Only suites may be given more than once. -/
def give (c : CommandLine) (opt : Opt) (value : String) : Except Refusal CommandLine :=
  match opt with
  | .host => if c.host.isSome then .error .argumentConflict else .ok { c with host := some value }
  | .port =>
    if c.port.isSome then .error .argumentConflict
    else (readPort value).map (fun port => { c with port := some port })
  | .logLevel =>
    if c.logLevel.isSome then .error .argumentConflict else .ok { c with logLevel := some value }
  | .suite => .ok { c with suites := c.suites ++ [value] }

def raise (c : CommandLine) (flag : String) : Except Refusal CommandLine :=
  if flag ∈ c.flags then .error .argumentConflict else .ok { c with flags := c.flags ++ [flag] }

/-- What an argument looks like. -/
inductive Shape
  /-- Two dashes, after which there are only plain values. -/
  | escape
  /-- A name after two dashes, perhaps with a value after an equals sign. -/
  | long (name : String) (value : Option String)
  /-- Letters after one dash. -/
  | short (letters : List Char)
  | plain
  deriving DecidableEq

def shape (arg : String) : Shape :=
  match arg.toList with
  | ['-', '-'] => .escape
  | '-' :: '-' :: rest =>
    let name := String.ofList (rest.takeWhile (· ≠ '='))
    match rest.dropWhile (· ≠ '=') with
    | [] => .long name none
    | _ :: value => .long name (some (String.ofList value))
  | ['-'] => .plain
  | '-' :: letters => .short letters
  | _ => .plain

/-- An option whose value, once it is there, is not taken before the next known argument. -/
abbrev Pending := Option (Opt × Option String)

/-- Takes the value of the option before. -/
def settle (c : CommandLine) : Pending → Except Refusal CommandLine
  | none => .ok c
  | some (_, none) => .error .invalidValue
  | some (opt, some value) => c.give opt value

/-- What comes of a name after two dashes. -/
def takeLong (c : CommandLine) (pending : Pending) (name : String) (value : Option String) :
    Except Refusal (CommandLine × Pending) :=
  match options.lookup name with
  | some opt =>
    match c.settle pending, value with
    | .error e, _ => .error e
    | .ok c, none => .ok (c, some (opt, none))
    | .ok c, some v => (c.give opt v).map (·, none)
  | none =>
    match requests.lookup name with
    | some request =>
      if value.isSome then .error .tooManyValues
      else (c.settle pending).bind (fun _ => .error request)
    | none =>
      if name ∉ flagNames then .error .unknownArgument
      else if value.isSome then .error .tooManyValues
      else (c.settle pending).bind (fun c => (c.raise name).map (·, none))

/-- Only the first of the letters after one dash counts, as none of them goes on. -/
def takeShort (c : CommandLine) (pending : Pending) (letters : List Char) : Refusal :=
  match letters.head?.bind (fun c => shortRequests.lookup c) with
  | none => .unknownArgument
  | some request =>
    match c.settle pending with
    | .ok _ => request
    | .error e => e

/-- Reads arguments from the left. -/
def parseFrom (c : CommandLine) (pending : Pending) : List String → Except Refusal CommandLine
  | [] => c.settle pending
  | arg :: args =>
    match shape arg, pending with
    | .escape, _ => if args.isEmpty then c.settle pending else .error .unknownArgument
    | .long name value, _ =>
      match c.takeLong pending name value with
      | .ok (c, pending) => parseFrom c pending args
      | .error e => .error e
    | .short letters, _ => .error (c.takeShort pending letters)
    | .plain, some (opt, none) => parseFrom c (some (opt, some arg)) args
    | .plain, _ => .error .unknownArgument

def parse (args : List String) : Except Refusal CommandLine := parseFrom {} none args

/-- The log filter, which has a default. -/
def filter (c : CommandLine) : String := c.logLevel.getD "info"

/-- The checks asked for; a suite has to be one that there is. -/
def checks (c : CommandLine) : Except Failure Checks :=
  match c.suites.find? (fun s => s ∉ Scenario.allSuites) with
  | some s =>
    .error (.plain ("unknown suite '" ++ s ++ "' (known: " ++
      ", ".intercalate Scenario.allSuites ++ ")"))
  | none =>
    .ok { gas := "no-check-gas" ∉ c.flags
          exitCode := "no-check-exit-code" ∉ c.flags
          returnValue := "no-check-return-value" ∉ c.flags
          stateRoot := "no-check-state-root" ∉ c.flags
          suites := c.suites }

end CommandLine
end Conformance
