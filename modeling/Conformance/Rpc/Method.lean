import Conformance.Block
import Conformance.Randomness
import Conformance.Receipt
import Conformance.Rpc.Envelope

namespace Conformance.Rpc

structure Method (π ρ : Type) where
  name : String
  params : Codec π
  result : Codec ρ

namespace Method

/-- An object without fields. -/
def empty : Codec Unit := .record "Empty" .nil id id

/-- Parameters that nobody looks at. -/
def ignored : Codec Unit where
  encode := empty.encode
  decode _ := .ok ()

/-- A record of one field. -/
def single {α : Type} (record field : String) (c : Codec α) : Codec α :=
  .record record (.required field c .nil) (fun x => (x, ())) (fun (x, ()) => x)

def newVmParams : Codec (Option String) :=
  .record "NewVmParams" (.defaulted "test_name" Codec.string.option none .nil)
    (fun x => (x, ())) (fun (x, ()) => x)

def rootResult : Codec Cid := single "RootReply" "root" Cid.codec

def storeGetParams : Codec Cid := single "StoreGetParams" "cid" Cid.codec

def storeGetResult : Codec Bytes := single "StoreGetReply" "data" .bytes

def storePutParams : Codec Bytes := single "StorePutParams" "data" .bytes

def storePutResult : Codec Cid := single "StorePutReply" "cid" Cid.codec

def actorParams : Codec Address := single "ActorParams" "address" Address.codec

def actorResult : Codec (Option Actor) :=
  .record "ActorReply" (.optional "actor" Actor.codec .nil) (fun x => (x, ())) (fun (x, ()) => x)

def setActorStateParams : Codec (Address × TokenAmount × Cid) :=
  .record "SetActorStateParams"
    (.required "address" Address.codec <| .required "balance" TokenAmount.codec <|
      .required "head" Cid.codec .nil)
    (fun (address, balance, head) => (address, balance, head, ()))
    (fun (address, balance, head, ()) => (address, balance, head))

def setActorStateResult : Codec Actor := single "SetActorStateReply" "actor" Actor.codec

def createActorParams : Codec (Cid × Address × TokenAmount × Cid) :=
  .record "CreateActorParams"
    (.required "code" Cid.codec <| .required "address" Address.codec <|
      .required "balance" TokenAmount.codec <| .required "head" Cid.codec .nil)
    (fun (code, address, balance, head) => (code, address, balance, head, ()))
    (fun (code, address, balance, head, ()) => (code, address, balance, head))

def createActorResult : Codec (Actor × Address) :=
  .record "CreateActorReply"
    (.required "actor" Actor.codec <| .required "address" Address.codec .nil)
    (fun (actor, address) => (actor, address, ()))
    (fun (actor, address, ()) => (actor, address))

/-- A message of some kind with the context it is applied in. -/
def applyParams {α : Type} (record : String) (message : Codec α) : Codec (ExecutionContext × α) :=
  .record record
    (.required "epoch" .int64 <| .required "miner" Address.codec <|
      .required "message" message .nil)
    (fun (ctx, m) => (ctx.epoch, ctx.miner, m, ()))
    (fun (epoch, miner, m, ()) => ({ epoch, miner }, m))

def applyMessageParams : Codec (ExecutionContext × Message) :=
  applyParams "ApplyMessageParams" Message.codec

def applySignedParams : Codec (ExecutionContext × SignedMessage) :=
  applyParams "ApplySignedMessageParams" SignedMessage.codec

def applyMessageResult : Codec MessageResult := MessageResult.codecNamed "ApplyMessageReply"

def applyTipSetParams : Codec (Int64 × List Block × Randomness) :=
  .record "ApplyTipSetParams"
    (.required "epoch" .int64 <| .required "blocks" Block.codec.list <|
      .required "randomness" Randomness.codec .nil)
    (fun (epoch, blocks, randomness) => (epoch, blocks, randomness, ()))
    (fun (epoch, blocks, randomness, ()) => (epoch, blocks, randomness))

def applyTipSetResult : Codec TipSetResult := TipSetResult.codecNamed "ApplyTipSetReply"

def newVm : Method (Option String) Unit := ⟨"VMWrapper.NewVM", newVmParams, empty⟩

def root : Method Unit Cid := ⟨"VMWrapper.Root", ignored, rootResult⟩

def storeGet : Method Cid Bytes := ⟨"VMWrapper.StoreGet", storeGetParams, storeGetResult⟩

def storePut : Method Bytes Cid := ⟨"VMWrapper.StorePut", storePutParams, storePutResult⟩

def actor : Method Address (Option Actor) := ⟨"VMWrapper.Actor", actorParams, actorResult⟩

def setActorState : Method (Address × TokenAmount × Cid) Actor :=
  ⟨"VMWrapper.SetActorState", setActorStateParams, setActorStateResult⟩

def createActor : Method (Cid × Address × TokenAmount × Cid) (Actor × Address) :=
  ⟨"VMWrapper.CreateActor", createActorParams, createActorResult⟩

def applyMessage : Method (ExecutionContext × Message) MessageResult :=
  ⟨"VMWrapper.ApplyMessage", applyMessageParams, applyMessageResult⟩

def applySigned : Method (ExecutionContext × SignedMessage) MessageResult :=
  ⟨"VMWrapper.ApplySignedMessage", applySignedParams, applyMessageResult⟩

def applyTipSet : Method (Int64 × List Block × Randomness) TipSetResult :=
  ⟨"VMWrapper.ApplyTipSetMessages", applyTipSetParams, applyTipSetResult⟩

/-- A setting that the server tells. -/
def setting {ρ : Type} (name : String) (result : Codec ρ) : Method Unit ρ := ⟨name, ignored, result⟩

def checkGas : Method Unit Bool := setting "Config.ValidateGas" .bool

def checkExitCode : Method Unit Bool := setting "Config.ValidateExitCode" .bool

def checkReturnValue : Method Unit Bool := setting "Config.ValidateReturnValue" .bool

def checkStateRoot : Method Unit Bool := setting "Config.ValidateStateRoot" .bool

def suites : Method Unit (List String) := setting "Config.TestSuites" Codec.string.list

end Method
end Conformance.Rpc
