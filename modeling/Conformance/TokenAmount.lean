import Conformance.Bytes
import Conformance.Json.Codec
import Conformance.Number.Numeral

namespace Conformance

/-- An amount counts the smallest unit. -/
abbrev TokenAmount := Nat

namespace TokenAmount

/-- The refusal of a text that is no amount. -/
structure ParseError where
  text : String
  cause : NumeralError
  deriving DecidableEq, Repr

def ParseError.message (e : ParseError) : String :=
  "invalid token amount '" ++ e.text ++ "': " ++ e.cause.message

def toText (a : TokenAmount) : String := Numeral.ofNat a

def parse (s : String) : Except ParseError TokenAmount :=
  (Numeral.readUnbounded s.toList).mapError (⟨s, ·⟩)

/-- The difference, if the first amount covers the second. -/
def sub? (a b : TokenAmount) : Option TokenAmount := if b ≤ a then some (a - b) else none

/-- The amount as a 64-bit word, if it fits. -/
def toUInt64? (a : TokenAmount) : Option UInt64 :=
  if a < 18446744073709551616 then some (UInt64.ofNat a) else none

/-- The magnitude, most significant byte first. -/
def bytes (a : TokenAmount) : Bytes := Bytes.ofNat a

def stored (a : TokenAmount) : Bytes := Bytes.sized (Bytes.utf8 a.toText)

def codec : Codec TokenAmount := Codec.text toText (fun s => (parse s).mapError ParseError.message)

end TokenAmount
end Conformance
