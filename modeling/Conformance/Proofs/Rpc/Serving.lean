import Mathlib.Data.List.Nodup
import Conformance.Proofs.Rpc.Wire
import Conformance.Rpc.Client

namespace Conformance.Rpc
variable {β : Type}

namespace Backend

/-- A call of a backend, by the type of its result. -/
inductive Call : Type → Type 1
  | newVm (test : Option String) : Call Unit
  | machine {α : Type} (k : Binding.Call α) : Call α

def call (b : Backend β) {α : Type} : Call α → Op β α
  | .newVm test => b.newVm test
  | .machine (.vm k) => b.toVm.call k
  | .machine (.message ctx m) => b.applyMessage ctx m
  | .machine (.signed ctx m) => b.applySigned ctx m
  | .machine (.tipSet blocks epoch randomness) => b.applyTipSet epoch blocks randomness

end Backend

/-- What a request asks for: a call of the backend, or one of the settings. -/
inductive Demand : Type → Type 1
  | call {α : Type} (k : Backend.Call α) : Demand α
  | setting {α : Type} (view : Checks → α) : Demand α

/-- Does what was asked for. -/
def Demand.meet (b : Backend β) (checks : Checks) {α : Type} : Demand α → Op β α
  | .call k => b.call k
  | .setting view => pure (view checks)

/-- A method with what its parameters ask for. -/
structure Service where
  {params : Type}
  {result : Type}
  method : Method params result
  asks : params → Demand result

namespace Service

/-- A setting is a service. -/
def setting {α : Type} (m : Method Unit α) (view : Checks → α) : Service where
  method := m
  asks _ := .setting view

/-- All services: ten calls of the backend, five settings. -/
def all : List Service :=
  [{ method := .newVm, asks := fun test => .call (.newVm test) },
   { method := .root, asks := fun _ => .call (.machine (.vm .root)) },
   { method := .storeGet, asks := fun cid => .call (.machine (.vm (.storeGet cid))) },
   { method := .storePut, asks := fun data => .call (.machine (.vm (.storePut data))) },
   { method := .actor, asks := fun a => .call (.machine (.vm (.actor a))) },
   { method := .setActorState
     asks := fun (a, balance, head) => .call (.machine (.vm (.setActorState a balance head))) },
   { method := .createActor
     asks := fun (code, a, balance, head) =>
      .call (.machine (.vm (.createActor code a balance head))) },
   { method := .applyMessage, asks := fun (ctx, m) => .call (.machine (.message ctx m)) },
   { method := .applySigned, asks := fun (ctx, m) => .call (.machine (.signed ctx m)) },
   { method := .applyTipSet
     asks := fun (epoch, blocks, randomness) => .call (.machine (.tipSet blocks epoch randomness)) },
   setting .checkGas (·.gas),
   setting .checkExitCode (·.exitCode),
   setting .checkReturnValue (·.returnValue),
   setting .checkStateRoot (·.stateRoot),
   setting .suites (·.suites)]

/-- The methods that take parameters. -/
def withParams : List String :=
  ["VMWrapper.NewVM", "VMWrapper.StoreGet", "VMWrapper.StorePut", "VMWrapper.Actor",
   "VMWrapper.SetActorState", "VMWrapper.CreateActor", "VMWrapper.ApplyMessage",
   "VMWrapper.ApplySignedMessage", "VMWrapper.ApplyTipSetMessages"]

/-- The methods that ask for settings. -/
def settings : List String :=
  ["Config.ValidateGas", "Config.ValidateExitCode", "Config.ValidateReturnValue",
   "Config.ValidateStateRoot", "Config.TestSuites"]

/-- The methods that are served. -/
def names : List String := withParams ++ "VMWrapper.Root" :: settings

theorem mem_names {name : String} : name ∈ names ↔ name ∈ all.map (·.method.name) := by
  have hperm : names.Perm (all.map (·.method.name)) := by decide
  exact hperm.mem_iff

/-- No two services have one name. -/
theorem eq_of_name {v w : Service} (hv : v ∈ all) (hw : w ∈ all)
    (h : v.method.name = w.method.name) : v = w :=
  List.inj_on_of_nodup_map (f := (·.method.name)) (by decide) hv hw h

def handler (b : Backend β) (checks : Checks) (v : Service) : Handler β :=
  Server.handler v.method (fun p => (v.asks p).meet b checks)

end Service

/-- The server's table is that of the services. -/
theorem Backend.handlers_eq (b : Backend β) (checks : Checks) :
    b.handlers checks = Service.all.map (Service.handler b checks) := rfl

namespace Request

/-- The request is for a service and has its parameters, which ask for this. -/
inductive Asks (r : Request) : {α : Type} → Demand α → Prop
  | intro {v : Service} {p : v.params} (served : v ∈ Service.all)
      (named : v.method.name = r.method) (decoded : v.method.params.ofOpaque r.params = .ok p) :
      r.Asks (v.asks p)

/-- The request is for a service and does not have its parameters. -/
def Refused (r : Request) (e : Json.DecodeError) : Prop :=
  ∃ v ∈ Service.all, v.method.name = r.method ∧ v.method.params.ofOpaque r.params = .error e

/-- A request is for no service, or is without the parameters it needs, or asks for something. -/
theorem unserved_or_refused_or_asks (r : Request) :
    r.method ∉ Service.names ∨ (∃ e, r.Refused e) ∨ ∃ (α : Type) (d : Demand α), r.Asks d := by
  by_cases hserved : r.method ∈ Service.names
  · obtain ⟨v, hv, hname⟩ := List.mem_map.mp (Service.mem_names.mp hserved)
    cases hdecode : v.method.params.ofOpaque r.params with
    | error e => exact .inr (.inl ⟨e, v, hv, hname, hdecode⟩)
    | ok p => exact .inr (.inr ⟨_, _, .intro hv hname hdecode⟩)
  · exact .inl hserved

variable {r : Request} {α : Type} {d : Demand α} {e : Json.DecodeError}

/-- The root may be asked for with any parameters. -/
theorem asks_root (id : UInt64) (params : Opaque) :
    Asks { id, method := Method.root.name, params } (.call (.machine (.vm .root))) :=
  .intro (v := { method := .root, asks := fun _ => .call (.machine (.vm .root)) }) (p := ())
    (by simp [Service.all]) rfl rfl

theorem Refused.not_asks (h : r.Refused e) : ¬ r.Asks d := by
  obtain ⟨v, hv, hname, hrefused⟩ := h
  rintro ⟨hw, hname', hdecoded⟩
  cases Service.eq_of_name hv hw (hname.trans hname'.symm)
  rw [hrefused] at hdecoded
  cases hdecoded

/-- What fails to arrive is parameters of a method that takes some. -/
theorem Refused.withParams (h : r.Refused e) : r.method ∈ Service.withParams := by
  obtain ⟨v, hv, hname, hrefused⟩ := h
  rw [← hname]
  simp only [Service.all, List.mem_cons, List.not_mem_nil, or_false] at hv
  rcases hv with rfl | rfl | rfl | rfl | rfl | rfl | rfl | rfl | rfl | rfl | rfl | rfl | rfl | rfl |
    rfl
  all_goals first | cases hrefused | decide

end Request

namespace Server

theorem faultOf_kind (e : Failure) : (faultOf e).kind = .backend ∨ (faultOf e).kind = .internal := by
  unfold faultOf
  split
  · exact .inr rfl
  · exact .inl rfl

/-- An error that the machine returned is told in full. -/
theorem faultOf_eq_backend {e : Failure} {message : String} :
    faultOf e = { kind := .backend, message } ↔ e.isOverflow = false ∧ e.toText = message := by
  unfold faultOf
  cases e.isOverflow <;> simp

theorem faultOf_eq_internal {e : Failure} :
    (faultOf e).kind = .internal ↔ e.isOverflow = true := by
  unfold faultOf
  cases e.isOverflow <;> simp

end Server

namespace Backend
variable {b : Backend β} {checks : Checks} {r : Request}

theorem carryOut_unserved (h : r.method ∉ Service.names) (s : β) :
    b.carryOut checks r s =
      (.error { kind := .unknownMethod, message := "unknown method '" ++ r.method ++ "'" }, s) := by
  have hnone : (b.handlers checks).find? (·.method = r.method) = none := by
    refine List.find?_eq_none.mpr (fun w hw hname => h ?_)
    rw [handlers_eq] at hw
    obtain ⟨v, hv, rfl⟩ := List.mem_map.mp hw
    exact Service.mem_names.mpr (List.mem_map.mpr ⟨v, hv, of_decide_eq_true hname⟩)
  simp only [carryOut, hnone]

/-- A request for a service is handled by it. -/
theorem carryOut_served {v : Service} (hv : v ∈ Service.all) (hname : v.method.name = r.method)
    (s : β) : b.carryOut checks r s = (v.handler b checks).handle r.params s := by
  have hfind : (b.handlers checks).find? (·.method = r.method) = some (v.handler b checks) := by
    cases hfound : (b.handlers checks).find? (·.method = r.method) with
    | none =>
      have hmiss := List.find?_eq_none.mp hfound (v.handler b checks) (List.mem_map_of_mem hv)
      exact absurd (decide_eq_true hname) hmiss
    | some found =>
      have hmem : found ∈ Service.all.map (Service.handler b checks) :=
        List.mem_of_find?_eq_some hfound
      obtain ⟨w, hw, rfl⟩ := List.mem_map.mp hmem
      have hmatch := List.find?_some hfound
      have hname' : w.method.name = r.method := of_decide_eq_true hmatch
      rw [Service.eq_of_name hw hv (hname'.trans hname.symm)]
  simp only [carryOut, hfind]

theorem carryOut_refused {e : Json.DecodeError} (h : r.Refused e) (s : β) :
    b.carryOut checks r s = (.error { kind := .invalidParams, message := e.message }, s) := by
  obtain ⟨v, hv, hname, hrefused⟩ := h
  simp only [carryOut_served hv hname, Service.handler, Server.handler, hrefused]

variable (b checks) in
/-- What is asked for is done, and its result or its failure is told. -/
theorem carryOut_decoded {v : Service} (hv : v ∈ Service.all) (hname : v.method.name = r.method)
    {p : v.params} (hdecoded : v.method.params.ofOpaque r.params = .ok p) (s : β) :
    b.carryOut checks r s =
      ((((v.asks p).meet b checks s).1.mapError Server.faultOf).map v.method.result.store,
        ((v.asks p).meet b checks s).2) := by
  simp only [carryOut_served hv hname, Service.handler, Server.handler, hdecoded]
  rcases (v.asks p).meet b checks s with ⟨_ | x, s'⟩ <;> rfl

variable (b checks) in
theorem carryOut_asks {α : Type} {d : Demand α} (h : r.Asks d) (s : β) :
    ∃ c : Codec α, b.carryOut checks r s =
      (((d.meet b checks s).1.mapError Server.faultOf).map c.store, (d.meet b checks s).2) := by
  obtain ⟨hv, hname, hdecoded⟩ := h
  exact ⟨_, carryOut_decoded b checks hv hname hdecoded s⟩

/-- A request that asks for something is not at fault itself. -/
theorem kind_of_asks {α : Type} {d : Demand α} (h : r.Asks d) {s : β} {fault : Fault}
    (hfault : (b.carryOut checks r s).1 = .error fault) :
    fault.kind = .backend ∨ fault.kind = .internal := by
  obtain ⟨c, hc⟩ := carryOut_asks b checks h s
  rw [hc] at hfault
  cases hx : (d.meet b checks s).1 with
  | ok x =>
    rw [hx] at hfault
    cases hfault
  | error e =>
    rw [hx] at hfault
    exact Except.error.inj hfault ▸ Server.faultOf_kind e

theorem carryOut_unserved_iff {s : β} :
    (∃ message, (b.carryOut checks r s).1 = .error { kind := .unknownMethod, message }) ↔
      r.method ∉ Service.names := by
  constructor
  · rintro ⟨message, hfault⟩
    rcases r.unserved_or_refused_or_asks with h | ⟨e, h⟩ | ⟨α, d, h⟩
    · exact h
    · rw [carryOut_refused h] at hfault
      cases hfault
    · simpa using kind_of_asks h hfault
  · intro h
    exact ⟨_, congrArg Prod.fst (carryOut_unserved h s)⟩

theorem carryOut_refused_iff {s : β} :
    (∃ message, (b.carryOut checks r s).1 = .error { kind := .invalidParams, message }) ↔
      ∃ e, r.Refused e := by
  constructor
  · rintro ⟨message, hfault⟩
    rcases r.unserved_or_refused_or_asks with h | ⟨e, h⟩ | ⟨α, d, h⟩
    · rw [carryOut_unserved h] at hfault
      cases hfault
    · exact ⟨e, h⟩
    · simpa using kind_of_asks h hfault
  · rintro ⟨e, h⟩
    exact ⟨_, congrArg Prod.fst (carryOut_refused h s)⟩

/-- Faults of the backend, and of a server that stopped in it, are those of calls that failed. -/
theorem carryOut_failed_iff {fault : Fault} {s : β}
    (hkind : fault.kind = .backend ∨ fault.kind = .internal) :
    (b.carryOut checks r s).1 = .error fault ↔
      ∃ (α : Type) (k : Call α) (e : Failure), r.Asks (.call k) ∧ (b.call k s).1 = .error e ∧
        Server.faultOf e = fault := by
  constructor
  · intro hfault
    rcases r.unserved_or_refused_or_asks with h | ⟨e, h⟩ | ⟨α, d, h⟩
    · rw [carryOut_unserved h] at hfault
      cases hfault
      simp at hkind
    · rw [carryOut_refused h] at hfault
      cases hfault
      simp at hkind
    · obtain ⟨c, hc⟩ := carryOut_asks b checks h s
      rw [hc] at hfault
      cases d with
      | setting view => cases hfault
      | call k =>
        cases hx : (b.call k s).1 with
        | ok x =>
          rw [Demand.meet, hx] at hfault
          cases hfault
        | error e =>
          rw [Demand.meet, hx] at hfault
          exact ⟨α, k, e, h, hx, Except.error.inj hfault⟩
  · rintro ⟨α, k, e, hasks, hx, rfl⟩
    obtain ⟨c, hc⟩ := carryOut_asks b checks hasks s
    rw [hc, Demand.meet, hx]
    rfl

end Backend

/-- A call over a link that loses nothing is answered by the peer itself. -/
theorem Client.call_lossless {π ρ : Type} (c : Client) (answer : Request → β → Response × β)
    (m : Method π ρ) (p : π) (s : Session β) :
    c.call (.lossless answer) m p s =
      let reply := answer { id := s.nextId, method := m.name, params := m.params.store p } s.peer
      (interpret m s.nextId { value := Response.codec.encode reply.1 },
        { peer := reply.2, nextId := s.nextId + 1 }) := by
  simp only [call, Link.lossless,
    (Request.carries { id := s.nextId, method := m.name, params := m.params.store p }).plain, outcome]

end Conformance.Rpc
