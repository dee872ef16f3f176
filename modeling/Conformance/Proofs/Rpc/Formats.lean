import Conformance.Proofs.Address
import Conformance.Proofs.Rpc.Wire

namespace Conformance

open Codec Fields

namespace Address

theorem faithful : codec.Faithful := by
  refine faithful_text (fun s a h => ?_)
  cases hs : parse s with
  | error e => simp [hs] at h
  | ok b =>
    rw [hs, mapError_ok, Except.ok.injEq] at h
    subst h
    rw [parse_toText (spells_of_parse hs).proper, mapError_ok]

end Address

section Types

theorem TokenAmount.faithful : codec.Faithful := .of_carries TokenAmount.carries

theorem Cid.faithful : codec.Faithful := .of_carries Cid.carries

theorem Randomness.faithful : codec.Faithful := .of_carries Randomness.carries

theorem Signature.faithful : codec.Faithful := .of_carries Signature.carries

theorem Message.faithful : codec.Faithful :=
  faithful_record "Message" (by decide)
    (faithful_required Address.faithful <| faithful_required Address.faithful <|
      faithful_required (.of_carries carries_uint64) <| faithful_required TokenAmount.faithful <|
      faithful_required (.of_carries carries_uint64) <| faithful_required (.of_carries carries_bytes) <|
      faithful_required TokenAmount.faithful <| faithful_required TokenAmount.faithful <|
      faithful_required (.of_carries carries_int64) trivial)
    (fun _ => rfl) (fun _ => rfl)

theorem SignedMessage.faithful : codec.Faithful :=
  faithful_record "SignedMessage" (by decide)
    (faithful_required Message.faithful <| faithful_required Signature.faithful trivial)
    (fun _ => rfl) (fun _ => rfl)

theorem Block.faithful : codec.Faithful :=
  faithful_record "BlockMessagesInfo" (by decide)
    (faithful_required Message.faithful.list <| faithful_required SignedMessage.faithful.list <|
      faithful_required Address.faithful <| faithful_required (.of_carries carries_int64) trivial)
    (fun _ => rfl) (fun _ => rfl)

theorem ExecutionContext.faithful : codec.Faithful :=
  faithful_record "ExecutionContext" (by decide)
    (faithful_required (.of_carries carries_int64) <| faithful_required Address.faithful trivial)
    (fun _ => rfl) (fun _ => rfl)

end Types

namespace Rpc

namespace Response

/-- A response as it arrives: a result that is null is none. -/
def heard (r : Response) : Response :=
  match r.result with
  | some ⟨.null, _⟩ => { r with result := none }
  | _ => r

theorem faithful : codec.Faithful :=
  faithful_record "RpcResponse" (by decide)
    (faithful_required (.of_carries carries_uint64) <|
      faithful_sparse (.option (.of_carries carries_any) (fun _ _ => any_ne_null)) <|
      faithful_sparse (.option (.of_carries Fault.carries) (fun _ _ _ _ => record_ne_null)) trivial)
    (fun _ => rfl) (fun _ => rfl)

/-- A result that is null is written, and read as none. -/
theorem decode_null (id : UInt64) (fault : Option Fault) :
    fields.decode "RpcResponse" (.object (fields.encode (id, some .null, fault, ()))) =
      .ok (id, none, fault, ()) := by
  have hcarries : fields.Carries (id, none, fault, ()) := fields_carries id fault (by simp)
  have hnull : ∀ e, e ∈ fields.encode (id, some .null, fault, ()) ↔
      e = ("result", .null) ∨ e ∈ fields.encode (id, none, fault, ()) := by
    intro e
    change e ∈ _ :: ("result", .null) :: _ ↔ _ ∨ e ∈ _ :: _
    simp only [List.mem_cons, or_left_comm]
    rfl
  refine Fields.decode_of_reads "RpcResponse" (by decide) hcarries (fun e he => ?_)
    ((fields.names_encode_sublist _).nodup (by decide)) (fun e he => ?_)
  · rcases (hnull e).mp he with rfl | he
    · simp [fields, Fields.Reads, Fields.required, Fields.sparse, Codec.option]
    · exact Fields.reads_encode (by decide) hcarries e he
  · exact List.mem_map_of_mem ((hnull e).mpr (.inr he))

theorem decode_encode (r : Response) : codec.decode (codec.encode r) = .ok r.heard := by
  obtain ⟨id, result, fault⟩ := r
  unfold heard
  split
  · rename_i hnull
    simp only at hnull
    subst hnull
    exact congrArg (Except.map _) (decode_null id fault)
  · rename_i hnull
    refine (carries (fun v hv hjson => ?_)).plain
    obtain ⟨json, hnormal⟩ := v
    obtain rfl : json = .null := hjson
    exact hnull _ hv

end Response

namespace Method

theorem single_faithful {α : Type} {c : Codec α} (record field : String) (h : c.Faithful) :
    (single record field c).Faithful :=
  faithful_record record (by simp [Fields.required, Fields.names]) (faithful_required h trivial)
    (fun _ => rfl) (fun _ => rfl)

theorem applyParams_faithful {α : Type} {c : Codec α} (record : String) (h : c.Faithful) :
    (applyParams record c).Faithful :=
  faithful_record record (by simp [Fields.required, Fields.names])
    (faithful_required (.of_carries carries_int64) <| faithful_required Address.faithful <|
      faithful_required h trivial)
    (fun _ => rfl) (fun _ => rfl)

theorem setActorStateParams_faithful : setActorStateParams.Faithful :=
  faithful_record "SetActorStateParams" (by decide)
    (faithful_required Address.faithful <| faithful_required TokenAmount.faithful <|
      faithful_required Cid.faithful trivial)
    (fun _ => rfl) (fun _ => rfl)

theorem createActorParams_faithful : createActorParams.Faithful :=
  faithful_record "CreateActorParams" (by decide)
    (faithful_required Cid.faithful <| faithful_required Address.faithful <|
      faithful_required TokenAmount.faithful <| faithful_required Cid.faithful trivial)
    (fun _ => rfl) (fun _ => rfl)

theorem createActorResult_faithful : createActorResult.Faithful :=
  faithful_record "CreateActorReply" (by decide)
    (faithful_required (.of_carries Actor.carries) <| faithful_required Address.faithful trivial)
    (fun _ => rfl) (fun _ => rfl)

theorem applyTipSetParams_faithful : applyTipSetParams.Faithful :=
  faithful_record "ApplyTipSetParams" (by decide)
    (faithful_required (.of_carries carries_int64) <| faithful_required Block.faithful.list <|
      faithful_required Randomness.faithful trivial)
    (fun _ => rfl) (fun _ => rfl)

end Method

/-- Everything that is written as JSON between client and server, by the type of its values: first
what is said, then the envelopes it travels in, then the parameters and results of the methods. -/
inductive Format : Type → Type 1
  | address : Format Address
  | amount : Format TokenAmount
  | cid : Format Cid
  | message : Format Message
  | sigType : Format SigType
  | signature : Format Signature
  | signedMessage : Format SignedMessage
  | block : Format Block
  | context : Format ExecutionContext
  | randomness : Format Randomness
  | exitCode : Format ExitCode
  | receipt : Format Receipt
  | messageResult : Format MessageResult
  | tipSetResult : Format TipSetResult
  | actor : Format Actor
  | checks : Format Checks
  | request : Format Request
  | response : Format Response
  | faultKind : Format FaultKind
  | fault : Format Fault
  | newVmParams : Format (Option String)
  | empty : Format Unit
  | rootResult : Format Cid
  | storeGetParams : Format Cid
  | storeGetResult : Format Bytes
  | storePutParams : Format Bytes
  | storePutResult : Format Cid
  | actorParams : Format Address
  | actorResult : Format (Option Actor)
  | setActorStateParams : Format (Address × TokenAmount × Cid)
  | setActorStateResult : Format Actor
  | createActorParams : Format (Cid × Address × TokenAmount × Cid)
  | createActorResult : Format (Actor × Address)
  | applyMessageParams : Format (ExecutionContext × Message)
  | applySignedParams : Format (ExecutionContext × SignedMessage)
  | applyMessageResult : Format MessageResult
  | applyTipSetParams : Format (Int64 × List Block × Randomness)
  | applyTipSetResult : Format TipSetResult

namespace Format

def codec : {α : Type} → Format α → Codec α
  | _, address => Address.codec
  | _, amount => TokenAmount.codec
  | _, cid => Cid.codec
  | _, message => Message.codec
  | _, sigType => SigType.codec
  | _, signature => Signature.codec
  | _, signedMessage => SignedMessage.codec
  | _, block => Block.codec
  | _, context => ExecutionContext.codec
  | _, randomness => Randomness.codec
  | _, exitCode => ExitCode.codec
  | _, receipt => Receipt.codec
  | _, messageResult => MessageResult.codec
  | _, tipSetResult => TipSetResult.codec
  | _, actor => Actor.codec
  | _, checks => Checks.codec
  | _, request => Request.codec
  | _, response => Response.codec
  | _, faultKind => FaultKind.codec
  | _, fault => Fault.codec
  | _, newVmParams => Method.newVmParams
  | _, empty => Method.empty
  | _, rootResult => Method.rootResult
  | _, storeGetParams => Method.storeGetParams
  | _, storeGetResult => Method.storeGetResult
  | _, storePutParams => Method.storePutParams
  | _, storePutResult => Method.storePutResult
  | _, actorParams => Method.actorParams
  | _, actorResult => Method.actorResult
  | _, setActorStateParams => Method.setActorStateParams
  | _, setActorStateResult => Method.setActorStateResult
  | _, createActorParams => Method.createActorParams
  | _, createActorResult => Method.createActorResult
  | _, applyMessageParams => Method.applyMessageParams
  | _, applySignedParams => Method.applySignedParams
  | _, applyMessageResult => Method.applyMessageResult
  | _, applyTipSetParams => Method.applyTipSetParams
  | _, applyTipSetResult => Method.applyTipSetResult

/-- Every address in a value is proper. -/
def Proper : {α : Type} → Format α → α → Prop
  | _, address, a => a.Proper
  | _, message, m => m.Proper
  | _, signedMessage, m => m.message.Proper
  | _, block, b => b.Proper
  | _, context, c => c.miner.Proper
  | _, actorParams, a => a.Proper
  | _, setActorStateParams, (a, _, _) => a.Proper
  | _, createActorParams, (_, a, _, _) => a.Proper
  | _, createActorResult, (_, id) => id.Proper
  | _, applyMessageParams, (ctx, m) => ctx.miner.Proper ∧ m.Proper
  | _, applySignedParams, (ctx, m) => ctx.miner.Proper ∧ m.message.Proper
  | _, applyTipSetParams, (_, blocks, _) => ∀ b ∈ blocks, b.Proper
  | _, _, _ => True

/-- A value as it arrives: as it is, but for responses. -/
def heard : {α : Type} → Format α → α → α
  | _, response, r => r.heard
  | _, _, x => x

variable {α : Type}

theorem decode_encode (f : Format α) {x : α} (h : f.Proper x) :
    f.codec.decode (f.codec.encode x) = .ok (f.heard x) := by
  cases f with
  | address => exact (Address.carries h).plain
  | amount => exact (TokenAmount.carries x).plain
  | cid => exact (Cid.carries x).plain
  | message => exact (Message.carries h).plain
  | sigType => exact (SigType.carries x).plain
  | signature => exact (Signature.carries x).plain
  | signedMessage => exact (SignedMessage.carries h).plain
  | block => exact (Block.carries h).plain
  | context => exact (ExecutionContext.carries h).plain
  | randomness => exact (Randomness.carries x).plain
  | exitCode => exact (ExitCode.carries x).plain
  | receipt => exact (Receipt.carries x).plain
  | messageResult => exact (MessageResult.carries _ x).plain
  | tipSetResult => exact (TipSetResult.carries _ x).plain
  | actor => exact (Actor.carries x).plain
  | checks => exact (Checks.carries x).plain
  | request => exact (Request.carries x).plain
  | response => exact Response.decode_encode x
  | faultKind => exact (FaultKind.carries x).plain
  | fault => exact (Fault.carries x).plain
  | newVmParams => exact (Method.newVmParams_carries x).plain
  | empty => exact Method.empty_carries.plain
  | rootResult => exact (Method.single_carries _ _ (Cid.carries x)).plain
  | storeGetParams => exact (Method.single_carries _ _ (Cid.carries x)).plain
  | storeGetResult => exact (Method.single_carries _ _ (carries_bytes x)).plain
  | storePutParams => exact (Method.single_carries _ _ (carries_bytes x)).plain
  | storePutResult => exact (Method.single_carries _ _ (Cid.carries x)).plain
  | actorParams => exact (Method.single_carries _ _ (Address.carries h)).plain
  | actorResult => exact (Method.actorResult_carries x).plain
  | setActorStateParams => exact (Method.setActorStateParams_carries h x.2.1 x.2.2).plain
  | setActorStateResult => exact (Method.single_carries _ _ (Actor.carries x)).plain
  | createActorParams => exact (Method.createActorParams_carries x.1 h x.2.2.1 x.2.2.2).plain
  | createActorResult => exact (Method.createActorResult_carries x.1 h).plain
  | applyMessageParams => exact (Method.applyParams_carries _ h.1 (Message.carries h.2)).plain
  | applySignedParams => exact (Method.applyParams_carries _ h.1 (SignedMessage.carries h.2)).plain
  | applyMessageResult => exact (MessageResult.carries _ x).plain
  | applyTipSetParams => exact (Method.applyTipSetParams_carries x.1 h x.2.2).plain
  | applyTipSetResult => exact (TipSetResult.carries _ x).plain

theorem faithful (f : Format α) : f.codec.Faithful := by
  cases f with
  | address => exact Address.faithful
  | message => exact Message.faithful
  | signedMessage => exact SignedMessage.faithful
  | block => exact Block.faithful
  | context => exact ExecutionContext.faithful
  | response => exact Response.faithful
  | actorParams => exact Method.single_faithful _ _ Address.faithful
  | setActorStateParams => exact Method.setActorStateParams_faithful
  | createActorParams => exact Method.createActorParams_faithful
  | createActorResult => exact Method.createActorResult_faithful
  | applyMessageParams => exact Method.applyParams_faithful _ Message.faithful
  | applySignedParams => exact Method.applyParams_faithful _ SignedMessage.faithful
  | applyTipSetParams => exact Method.applyTipSetParams_faithful
  | amount => exact TokenAmount.faithful
  | cid => exact Cid.faithful
  | sigType => exact .of_carries SigType.carries
  | signature => exact Signature.faithful
  | randomness => exact Randomness.faithful
  | exitCode => exact .of_carries ExitCode.carries
  | receipt => exact .of_carries Receipt.carries
  | messageResult => exact .of_carries (MessageResult.carries _)
  | tipSetResult => exact .of_carries (TipSetResult.carries _)
  | actor => exact .of_carries Actor.carries
  | checks => exact .of_carries Checks.carries
  | request => exact .of_carries Request.carries
  | faultKind => exact .of_carries FaultKind.carries
  | fault => exact .of_carries Fault.carries
  | newVmParams => exact .of_carries Method.newVmParams_carries
  | empty => exact .of_carries (fun _ => Method.empty_carries)
  | rootResult | storeGetParams | storePutResult => exact Method.single_faithful _ _ Cid.faithful
  | storeGetResult | storePutParams =>
    exact Method.single_faithful _ _ (.of_carries carries_bytes)
  | actorResult => exact .of_carries Method.actorResult_carries
  | setActorStateResult => exact Method.single_faithful _ _ (.of_carries Actor.carries)
  | applyMessageResult => exact .of_carries (MessageResult.carries _)
  | applyTipSetResult => exact .of_carries (TipSetResult.carries _)

/-- What is written reads back, but for a response with a result that is null, which is read as one
without. What was read from any form is read again from what it is written as, so that writing again
what was read changes nothing after the first time. -/
theorem round_trip (f : Format α) :
    (∀ x, f.Proper x → f.codec.decode (f.codec.encode x) = .ok (f.heard x)) ∧
    (∀ v x, f.codec.decode v = .ok x → f.codec.decode (f.codec.encode x) = .ok x) ∧
    ∀ v w, f.codec.rewrite v = .ok w → f.codec.rewrite w = .ok w :=
  ⟨fun _ => f.decode_encode, fun v x h => (f.faithful v x h).plain,
    fun _ _ => f.faithful.rewrite_eq⟩

/-- A key of the right length, and an ID with leading zeros in a list in place of an object. -/
theorem round_trip_actorParams :
    let key : Address := .bls (List.replicate 48 7)
    let listed := Json.array [.string "t0007"]
    key.Proper ∧ actorParams.codec.decode (actorParams.codec.encode key) = .ok key ∧
    actorParams.codec.decode listed = .ok (.id 7) ∧
    actorParams.codec.decode (actorParams.codec.encode (.id 7)) = .ok (.id 7) ∧
    ∃ w, actorParams.codec.rewrite listed = .ok w ∧ actorParams.codec.rewrite w = .ok w := by
  intro key listed
  obtain ⟨hread, hagain, hrewrite⟩ := round_trip actorParams
  have hkey : key.Proper := by decide
  have hlisted : actorParams.codec.decode listed = .ok (.id 7) := rfl
  have hwritten : actorParams.codec.rewrite listed = .ok (actorParams.codec.encode (.id 7)) :=
    congrArg (Except.map _) hlisted
  exact ⟨hkey, hread key hkey, hlisted, hagain listed _ hlisted, _, hwritten,
    hrewrite _ _ hwritten⟩

end Format
end Rpc
end Conformance
