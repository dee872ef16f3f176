import Conformance.Cid
import Conformance.TokenAmount

namespace Conformance

/-- The outcome of a message. Every code but zero is a failure of the message, not of the machine. -/
structure ExitCode where
  value : UInt32
  deriving DecidableEq, Repr, Inhabited

namespace ExitCode

def ok : ExitCode := ⟨0⟩
def senderInvalid : ExitCode := ⟨1⟩
def senderStateInvalid : ExitCode := ⟨2⟩
def invalidMethod : ExitCode := ⟨3⟩
def invalidReceiver : ExitCode := ⟨5⟩
def insufficientFunds : ExitCode := ⟨6⟩
def outOfGas : ExitCode := ⟨7⟩

def isSuccess (c : ExitCode) : Bool := c == ok

/-- The codes that have a name. -/
def named : List (UInt32 × String) :=
  [(0, "Ok"), (1, "SysErrSenderInvalid"), (2, "SysErrSenderStateInvalid"),
   (3, "SysErrInvalidMethod"), (5, "SysErrInvalidReceiver"), (6, "SysErrInsufficientFunds"),
   (7, "SysErrOutOfGas"), (8, "SysErrForbidden"), (16, "ErrIllegalArgument"), (17, "ErrNotFound"),
   (20, "ErrIllegalState")]

def name? (c : ExitCode) : Option String := named.lookup c.value

def toText (c : ExitCode) : String :=
  c.name?.getD "ExitCode" ++ "(" ++ Numeral.ofNat c.value.toNat ++ ")"

def codec : Codec ExitCode := Codec.uint32.map value mk

end ExitCode

structure Receipt where
  exitCode : ExitCode
  returnValue : Bytes
  gasUsed : Int64
  deriving DecidableEq, Repr, Inhabited

namespace Receipt

def codec : Codec Receipt :=
  .record "MessageReceipt"
    (.required "exit_code" ExitCode.codec <| .required "return_value" .bytes <|
      .required "gas_used" .int64 .nil)
    (fun r => (r.exitCode, r.returnValue, r.gasUsed, ()))
    (fun (exitCode, returnValue, gasUsed, ()) => { exitCode, returnValue, gasUsed })

/-- Gas is added up from the left and stops at the ends of the signed 64-bit range. -/
def totalGas (receipts : List Receipt) : Int64 :=
  receipts.foldl
    (fun total r =>
      Int64.ofInt (max (-9223372036854775808)
        (min 9223372036854775807 (total.toInt + r.gasUsed.toInt)))) 0

end Receipt

/-- What one message did: its receipt, the miner's penalty and reward, and the root after it. -/
structure MessageResult where
  receipt : Receipt
  penalty : TokenAmount
  reward : TokenAmount
  root : Cid
  deriving DecidableEq, Repr, Inhabited

namespace MessageResult

/-- The result as a record of the given name. -/
def codecNamed (name : String) : Codec MessageResult :=
  .record name
    (.required "receipt" Receipt.codec <| .required "penalty" TokenAmount.codec <|
      .required "reward" TokenAmount.codec <| .required "root" Cid.codec .nil)
    (fun r => (r.receipt, r.penalty, r.reward, r.root, ()))
    (fun (receipt, penalty, reward, root, ()) => { receipt, penalty, reward, root })

def codec : Codec MessageResult := codecNamed "ApplyMessageResult"

end MessageResult

/-- What a tip-set did: one receipt for every message that was not dropped. -/
structure TipSetResult where
  receipts : List Receipt
  root : Cid
  deriving DecidableEq, Repr

namespace TipSetResult

def totalGasUsed (r : TipSetResult) : Int64 := Receipt.totalGas r.receipts

/-- The result as a record of the given name. -/
def codecNamed (name : String) : Codec TipSetResult :=
  .record name (.required "receipts" Receipt.codec.list <| .required "root" Cid.codec .nil)
    (fun r => (r.receipts, r.root, ()))
    (fun (receipts, root, ()) => { receipts, root })

def codec : Codec TipSetResult := codecNamed "ApplyTipSetResult"

end TipSetResult

structure Actor where
  code : Cid
  head : Cid
  nonce : UInt64
  balance : TokenAmount
  deriving DecidableEq, Repr, Inhabited

namespace Actor

/-- An account that has sent nothing yet. -/
def account (balance : TokenAmount) : Actor := ⟨.account, .emptyObject, 0, balance⟩

def codec : Codec Actor :=
  .record "Actor"
    (.required "code" Cid.codec <| .required "head" Cid.codec <|
      .required "call_seq_num" .uint64 <| .required "balance" TokenAmount.codec .nil)
    (fun a => (a.code, a.head, a.nonce, a.balance, ()))
    (fun (code, head, nonce, balance, ()) => { code, head, nonce, balance })

end Actor

/-- Which outputs of a run are compared, and which suites run at all. -/
structure Checks where
  gas : Bool := true
  exitCode : Bool := true
  returnValue : Bool := true
  stateRoot : Bool := true
  suites : List String := []
  deriving DecidableEq, Repr, Inhabited

namespace Checks

/-- No suites listed means every suite. -/
def enables (c : Checks) (suite : String) : Bool := c.suites.isEmpty || c.suites.contains suite

def codec : Codec Checks :=
  .record "ValidationConfig"
    (.required "check_gas" .bool <| .required "check_exit_code" .bool <|
      .required "check_return_value" .bool <| .required "check_state_root" .bool <|
      .defaulted "test_suites" Codec.string.list [] .nil)
    (fun c => (c.gas, c.exitCode, c.returnValue, c.stateRoot, c.suites, ()))
    (fun (gas, exitCode, returnValue, stateRoot, suites, ()) =>
      { gas, exitCode, returnValue, stateRoot, suites })

end Checks
end Conformance
