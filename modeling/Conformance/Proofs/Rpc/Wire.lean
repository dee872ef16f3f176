import Conformance.Proofs.Json.Texts
import Conformance.Rpc.Method

namespace Conformance

open Codec

theorem SigType.carries (t : SigType) : codec.Carries t := by
  cases t <;> exact carries_choice rfl

theorem Signature.carries (s : Signature) : codec.Carries s :=
  carries_record "Signature" (by decide)
    ⟨SigType.carries s.sigType, carries_bytes s.bytes, trivial⟩ rfl

namespace Message

def Proper (m : Message) : Prop := m.recipient.Proper ∧ m.sender.Proper

instance (m : Message) : Decidable m.Proper := inferInstanceAs (Decidable (_ ∧ _))

theorem carries {m : Message} (h : m.Proper) : codec.Carries m :=
  carries_record "Message" (by decide)
    ⟨Address.carries h.1, Address.carries h.2, carries_uint64 m.nonce, TokenAmount.carries m.value,
      carries_uint64 m.method, carries_bytes m.params, TokenAmount.carries m.gasFeeCap,
      TokenAmount.carries m.gasPremium, carries_int64 m.gasLimit, trivial⟩ rfl

end Message

theorem SignedMessage.carries {m : SignedMessage} (h : m.message.Proper) : codec.Carries m :=
  carries_record "SignedMessage" (by decide)
    ⟨Message.carries h, Signature.carries m.signature, trivial⟩ rfl

namespace Block

structure Proper (b : Block) : Prop where
  bls : ∀ m ∈ b.bls, m.Proper
  secp : ∀ m ∈ b.secp, m.message.Proper
  miner : b.miner.Proper

theorem carries {b : Block} (h : b.Proper) : codec.Carries b :=
  carries_record "BlockMessagesInfo" (by decide)
    ⟨carries_list (fun m hm => Message.carries (h.bls m hm)),
      carries_list (fun m hm => SignedMessage.carries (h.secp m hm)), Address.carries h.miner,
      carries_int64 b.tickets, trivial⟩ rfl

end Block

theorem ExecutionContext.carries {c : ExecutionContext} (h : c.miner.Proper) : codec.Carries c :=
  carries_record "ExecutionContext" (by decide)
    ⟨carries_int64 c.epoch, Address.carries h, trivial⟩ rfl

theorem ExitCode.carries (c : ExitCode) : codec.Carries c := (carries_uint32 c.value).map rfl

theorem Receipt.carries (r : Receipt) : codec.Carries r :=
  carries_record "MessageReceipt" (by decide)
    ⟨ExitCode.carries r.exitCode, carries_bytes r.returnValue, carries_int64 r.gasUsed, trivial⟩ rfl

theorem MessageResult.carries (name : String) (r : MessageResult) : (codecNamed name).Carries r :=
  carries_record name (by decide)
    ⟨Receipt.carries r.receipt, TokenAmount.carries r.penalty, TokenAmount.carries r.reward,
      Cid.carries r.root, trivial⟩ rfl

theorem TipSetResult.carries (name : String) (r : TipSetResult) : (codecNamed name).Carries r :=
  carries_record name (by decide)
    ⟨carries_list (fun r _ => Receipt.carries r), Cid.carries r.root, trivial⟩ rfl

theorem Actor.carries (a : Actor) : codec.Carries a :=
  carries_record "Actor" (by decide)
    ⟨Cid.carries a.code, Cid.carries a.head, carries_uint64 a.nonce, TokenAmount.carries a.balance,
      trivial⟩ rfl

theorem Checks.carries (c : Checks) : codec.Carries c :=
  carries_record "ValidationConfig" (by decide)
    ⟨carries_bool c.gas, carries_bool c.exitCode, carries_bool c.returnValue,
      carries_bool c.stateRoot, carries_list (fun s _ => carries_string s), trivial⟩ rfl

namespace Rpc

/-- A record is never written as null. -/
theorem record_ne_null {α τ : Type} {name : String} {fs : Fields τ} {unpack : α → τ}
    {pack : τ → α} {x : α} : (record name fs unpack pack).encode x ≠ .null := by
  simp [record]

theorem FaultKind.carries (k : FaultKind) : codec.Carries k := by
  cases k <;> exact carries_choice rfl

theorem Fault.carries (f : Fault) : codec.Carries f :=
  carries_record "RpcFault" (by decide)
    ⟨FaultKind.carries f.kind, carries_string f.message, trivial⟩ rfl

theorem Request.carries (r : Request) : codec.Carries r :=
  carries_record "RpcRequest" (by decide)
    ⟨carries_uint64 r.id, carries_string r.method, carries_any r.params, trivial⟩ rfl

namespace Response

/-- The fields of a response. -/
def fields : Fields (UInt64 × Option Opaque × Option Fault × Unit) :=
  .required "id" .uint64 <| .sparse "result" .any <| .sparse "error" Fault.codec .nil

/-- The fields arrive, unless the result is null. -/
theorem fields_carries (id : UInt64) {result : Option Opaque} (fault : Option Fault)
    (h : ∀ v, result = some v → v.json ≠ .null) : fields.Carries (id, result, fault, ()) := by
  refine ⟨carries_uint64 id, ?_, ?_, trivial⟩
  · cases result with
    | none => rfl
    | some v => exact carries_some (carries_any v) (h v rfl)
  · cases fault with
    | none => rfl
    | some f => exact carries_some (Fault.carries f) record_ne_null

theorem carries {r : Response} (h : ∀ v, r.result = some v → v.json ≠ .null) : codec.Carries r :=
  carries_record "RpcResponse" (by decide) (fields_carries r.id r.fault h) rfl

/-- A response arrives, unless its result is null: then it arrives without one. -/
theorem carries_ofOutcome (id : UInt64) {outcome : Except Rpc.Fault Opaque}
    (h : ∀ v, outcome = .ok v → v.json ≠ .null) : codec.Carries (ofOutcome id outcome) := by
  cases outcome with
  | ok v => exact carries (fun w hw => h w (congrArg Except.ok (Option.some.inj hw)))
  | error fault => exact carries (fun _ hw => nomatch hw)

end Response

namespace Method

theorem empty_carries : empty.Carries () := carries_record "Empty" (by decide) trivial rfl

theorem ignored_carries : ignored.Carries () :=
  ⟨rfl, .object [], by simp [ignored, empty, record, Fields.encode, Json.normalize,
    Json.normalizeFields, Json.sortFields], rfl⟩

theorem single_carries {α : Type} {c : Codec α} {x : α} (record field : String) (h : c.Carries x) :
    (single record field c).Carries x :=
  carries_record record (by simp [Fields.required, Fields.names]) ⟨h, trivial⟩ rfl

theorem newVmParams_carries (test : Option String) : newVmParams.Carries test := by
  refine carries_record "NewVmParams" (by decide) ⟨?_, trivial⟩ rfl
  cases test with
  | none => exact carries_none _
  | some name => exact carries_some (carries_string name) (by simp [Codec.string])

theorem actorResult_carries (a : Option Actor) : actorResult.Carries a := by
  refine carries_record "ActorReply" (by decide) ⟨?_, trivial⟩ rfl
  cases a with
  | none => exact carries_none _
  | some a => exact carries_some (Actor.carries a) record_ne_null

theorem setActorStateParams_carries {a : Address} (h : a.Proper) (balance : TokenAmount)
    (head : Cid) : setActorStateParams.Carries (a, balance, head) :=
  carries_record "SetActorStateParams" (by decide)
    ⟨Address.carries h, TokenAmount.carries balance, Cid.carries head, trivial⟩ rfl

theorem createActorParams_carries (code : Cid) {a : Address} (h : a.Proper)
    (balance : TokenAmount) (head : Cid) : createActorParams.Carries (code, a, balance, head) :=
  carries_record "CreateActorParams" (by decide)
    ⟨Cid.carries code, Address.carries h, TokenAmount.carries balance, Cid.carries head, trivial⟩
    rfl

theorem createActorResult_carries (a : Actor) {id : Address} (h : id.Proper) :
    createActorResult.Carries (a, id) :=
  carries_record "CreateActorReply" (by decide) ⟨Actor.carries a, Address.carries h, trivial⟩ rfl

theorem applyParams_carries {α : Type} {c : Codec α} {ctx : ExecutionContext} {m : α}
    (record : String) (hminer : ctx.miner.Proper) (h : c.Carries m) :
    (applyParams record c).Carries (ctx, m) :=
  carries_record record (by simp [Fields.required, Fields.names])
    ⟨carries_int64 ctx.epoch, Address.carries hminer, h, trivial⟩ rfl

theorem applyTipSetParams_carries (epoch : Int64) {blocks : List Block}
    (h : ∀ b ∈ blocks, b.Proper) (randomness : Randomness) :
    applyTipSetParams.Carries (epoch, blocks, randomness) :=
  carries_record "ApplyTipSetParams" (by decide)
    ⟨carries_int64 epoch, carries_list (fun b hb => Block.carries (h b hb)),
      Randomness.carries randomness, trivial⟩ rfl

end Method
end Rpc
end Conformance
