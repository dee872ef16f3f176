import Conformance.Scenario

namespace Conformance.Scenario

def messageApplication : String := "message_application"

def tipset : String := "tipset"

/-- The sender pays the value and the gas, the recipient gets the value. -/
def valueTransfer : Scenario where
  name := "value_transfer"
  suite := messageApplication
  program := do
    let alice ← account 10000000
    let bob ← account 0
    let r ← applyExpecting (← pay alice bob [.value 50]) .ok
    match TokenAmount.sub? (10000000 - 50) (Word.bits r.receipt.gasUsed) with
    | none => .fail (.ofMachine .subtractionOverflow)
    | some left => do
      expectBalance "sender balance" alice left
      expectBalance "receiver balance" bob 50

/-- A sender that was never created cannot send. -/
def unknownSender : Scenario where
  name := "unknown_sender"
  suite := messageApplication
  program := do
    let bob ← account 0
    let ghost := Address.ofSecp256k1Key (Bytes.utf8 "never-created")
    let _ ← applyExpecting (← pay ghost bob [.value 1]) .senderInvalid
    expectBalance "receiver balance" bob 0

/-- Only the message with the sender's next nonce is applied. -/
def badNonce : Scenario where
  name := "bad_nonce"
  suite := messageApplication
  program := do
    let alice ← account 10000000
    let bob ← account 0
    let _ ← applyExpecting (← pay alice bob [.value 1, .nonce 1]) .senderStateInvalid
    let _ ← applyExpecting (← pay alice bob [.value 1, .nonce 0]) .ok
    let _ ← applyExpecting (← pay alice bob [.value 1, .nonce 0]) .senderStateInvalid
    let _ ← applyExpecting (← pay alice bob [.value 1, .nonce 1]) .ok
    expectBalance "receiver balance" bob 2

/-- Who sends all it has cannot pay for the gas. -/
def insufficientValue : Scenario where
  name := "insufficient_value"
  suite := messageApplication
  program := do
    let alice ← account 2000000
    let bob ← account 0
    let _ ← applyExpecting (← pay alice bob [.value 2000000]) .insufficientFunds
    expectBalance "receiver balance" bob 0

/-- A message that a block holds in both pools is applied once. -/
def dedupAcrossPools : Scenario where
  name := "dedup_across_pools"
  suite := tipset
  program := do
    let alice ← account 10000000
    let bob ← account 0
    let m ← pay alice bob [.value 10, .nonce 0]
    let block := (Block.start (.id 1000)).addBls m |>.addSecp (signed m)
    expectReceipts 1 (← applyBlocks [block]).receipts
    expectBalance "receiver balance" bob 10

/-- Messages signed together come first, whatever the order in which a block was built. -/
def poolOrdering : Scenario where
  name := "pool_ordering"
  suite := tipset
  program := do
    let alice ← account 10000000
    let bob ← account 0
    let carol ← account 0
    let toCarol ← pay alice carol [.value 7, .nonce 1]
    let toBob ← pay alice bob [.value 3, .nonce 0]
    let block := (Block.start (.id 1000)).addSecp (signed toCarol) |>.addBls toBob
    expectReceipts 2 (← applyBlocks [block]).receipts
    expectBalance "bob balance" bob 3
    expectBalance "carol balance" carol 7

/-- A message that a later block repeats is applied in the first. -/
def dedupAcrossBlocks : Scenario where
  name := "dedup_across_blocks"
  suite := tipset
  program := do
    let alice ← account 10000000
    let bob ← account 0
    let first ← pay alice bob [.value 5, .nonce 0]
    let second ← pay alice bob [.value 6, .nonce 1]
    let block := (Block.start (.id 1000)).addBls first
    let later := { block.clear with miner := .id 1001 }.addBls first |>.addBls second
    expectReceipts 2 (← applyBlocks [block, later]).receipts
    expectBalance "receiver balance" bob 11

def catalogue : List Scenario :=
  [valueTransfer, unknownSender, badNonce, insufficientValue,
   dedupAcrossPools, poolOrdering, dedupAcrossBlocks]

/-- The suites that there are. -/
def allSuites : List String := suites catalogue

end Conformance.Scenario
