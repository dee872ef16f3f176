import Conformance.Trial.Program

namespace Conformance

structure Scenario where
  name : String
  suite : String
  program : Trial.Program Unit

namespace Scenario

open Trial (Program)

/-- The name of a scenario's test, unless it is given another. -/
def testName (s : Scenario) : String := s.suite ++ "::" ++ s.name

/-- The suites of a list of scenarios, each of them once. -/
def suites (scenarios : List Scenario) : List String :=
  scenarios.foldl (fun names s => if s.suite ∈ names then names else names ++ [s.suite]) []

/-- A value that has to be as expected. -/
def expect {α : Type} [DecidableEq α] (what : String) (write : α → String) (expected actual : α) :
    Program Unit :=
  if expected = actual then pure () else .fail (.mismatch what (write expected) (write actual))

/-- An account with a balance. -/
def account (balance : TokenAmount) : Program Address := .perform (.newAccount balance)

def pay (sender recipient : Address) (options : List MessageOption) : Program Message :=
  .perform (.transfer recipient sender options)

/-- Applies a message that has to end in an exit code. -/
def applyExpecting (m : Message) (code : ExitCode) : Program MessageResult :=
  .perform (.apply m (some code))

/-- An account has to own an amount. -/
def expectBalance (what : String) (a : Address) (expected : TokenAmount) : Program Unit := do
  expect what TokenAmount.toText expected (← .perform (.balance a))

/-- Applies blocks with the randomness that the test's name gives. -/
def applyBlocks (blocks : List Block) : Program TipSetResult := do
  .perform (.applyTipSet blocks (.ofLabel (← .perform .test)))

/-- The receipts have to be this many and all successes. -/
def expectReceipts (count : Nat) (receipts : List Receipt) : Program Unit := do
  expect "receipt count" Numeral.ofNat count receipts.length
  receipts.forM (fun r => expect "exit code" ExitCode.toText .ok r.exitCode)

/-- A message with a signature that nobody checks. -/
def signed (m : Message) : SignedMessage :=
  { message := m, signature := { sigType := .secp256k1, bytes := List.replicate 65 0 } }

end Scenario
end Conformance
