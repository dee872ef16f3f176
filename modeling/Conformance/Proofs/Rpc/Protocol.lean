import Mathlib.Data.List.Forall2
import Conformance.Proofs.Rpc.Binding

namespace Conformance.Rpc
variable {β : Type}

namespace Response

/-- The response is a fault of a kind. -/
def Faults (reply : Response) (kind : FaultKind) : Prop :=
  ∃ message, reply.fault = some { kind, message }

/-- Responses that differ in their numbers at most. -/
def Alike (x y : Response) : Prop := x.result = y.result ∧ x.fault = y.fault

end Response

/-- Requests that differ in their numbers at most. -/
def Request.Alike (x y : Request) : Prop := x.method = y.method ∧ x.params = y.params

namespace Backend
variable {b : Backend β} {checks : Checks} {r : Request} {s : β}

theorem fault_dispatch {fault : Fault} :
    (b.dispatch checks r s).1.fault = some fault ↔ (b.carryOut checks r s).1 = .error fault := by
  unfold dispatch
  rcases b.carryOut checks r s with ⟨_ | v, s'⟩ <;> simp [Response.ofOutcome]

theorem snd_dispatch : (b.dispatch checks r s).2 = (b.carryOut checks r s).2 := rfl

/-- Parameters arrive as something to ask for or not at all. -/
theorem refused_iff : (∃ e, r.Refused e) ↔
    r.method ∈ Service.withParams ∧ ∀ (α : Type) (d : Demand α), ¬ r.Asks d := by
  constructor
  · rintro ⟨e, h⟩
    exact ⟨h.withParams, fun α d => h.not_asks⟩
  · rintro ⟨htakes, hnone⟩
    rcases r.unserved_or_refused_or_asks with h | h | ⟨α, d, h⟩
    · exact absurd (List.mem_append_left _ htakes) h
    · exact h
    · exact absurd h (hnone α d)

variable (b checks) in
/-- Numbers are only repeated: the answer is otherwise that to the request under another number. -/
theorem dispatch_alike {r' : Request} (h : r.Alike r') (s : β) :
    (b.dispatch checks r s).1.Alike (b.dispatch checks r' s).1 ∧
      (b.dispatch checks r s).2 = (b.dispatch checks r' s).2 := by
  have hsame : b.carryOut checks r' s = b.carryOut checks r s := by
    simp only [carryOut, h.1, h.2]
  unfold dispatch
  rw [hsame]
  rcases b.carryOut checks r s with ⟨_ | v, s'⟩ <;> exact ⟨⟨rfl, rfl⟩, rfl⟩

variable (b checks) in
/-- Answers requests one after the other. -/
def answerAll : List Request → β → List Response × β
  | [], s => ([], s)
  | r :: rs, s =>
    let (reply, s) := b.dispatch checks r s
    let (replies, s) := answerAll rs s
    (reply :: replies, s)

/-- From one state, requests that differ in their numbers have answers that do no more. -/
theorem answerAll_alike {rs rs' : List Request} (h : List.Forall₂ Request.Alike rs rs') (s : β) :
    List.Forall₂ Response.Alike (b.answerAll checks rs s).1 (b.answerAll checks rs' s).1 := by
  induction h generalizing s with
  | nil => exact .nil
  | cons hr _ ih =>
    obtain ⟨hreply, hstate⟩ := dispatch_alike b checks hr s
    simp only [answerAll, hstate]
    exact .cons hreply (ih _)

end Backend

/-- The methods that only look. -/
def Service.lookers : List String :=
  ["VMWrapper.Root", "VMWrapper.StoreGet", "VMWrapper.Actor"] ++ Service.settings

namespace Demand

/-- The demand is for something to look at. -/
inductive Looks : {α : Type} → Demand α → Prop
  | setting {α : Type} (view : Checks → α) : Looks (.setting view)
  | root : Looks (.call (.machine (.vm .root)))
  | storeGet (cid : Cid) : Looks (.call (.machine (.vm (.storeGet cid))))
  | actor (a : Address) : Looks (.call (.machine (.vm (.actor a))))

/-- The demand is for a new machine. -/
def Begins : {α : Type} → Demand α → Prop
  | _, .call (.newVm _) => True
  | _, _ => False

end Demand

namespace Request
variable {r : Request} {α : Type} {d : Demand α}

/-- What a request asks for goes by its method. -/
theorem Asks.by_method (h : r.Asks d) : (r.method ∈ Service.lookers → d.Looks) ∧
    (d.Begins ↔ r.method = Method.newVm.name) := by
  obtain ⟨hv, hname, _⟩ := h
  rename_i v p _
  rw [← hname]
  simp only [Service.all, List.mem_cons, List.not_mem_nil, or_false] at hv
  rcases hv with rfl | rfl | rfl | rfl | rfl | rfl | rfl | rfl | rfl | rfl | rfl | rfl | rfl | rfl |
    rfl
  all_goals refine ⟨fun hlook => ?_, fun hbegin => ?_, fun hname => ?_⟩
  all_goals first
    | exact .root | exact .storeGet _ | exact .actor _ | exact .setting _
    | exact absurd hlook (by decide)
    | exact absurd hname (by decide)
    | exact False.elim hbegin
    | exact trivial
    | rfl

end Request

variable {checks : Checks} {r : Request} {s : Option Sandbox}

/-- Only to look leaves the sandbox as it is. -/
theorem Demand.Looks.leaves {α : Type} {d : Demand α} (h : d.Looks) :
    (d.meet (sandboxServer checks).backend checks s).2 = s := by
  cases h <;> cases s <;> rfl

/-- Without a machine there is nothing that a call could do. -/
theorem call_idle {α : Type} (k : Binding.Call α) :
    (sandboxServer checks).backend.call (.machine k) none =
      (.error (.plain "no current VM; call VMWrapper.NewVM first"), none) := by
  rcases k with k | _ | _ | _
  · cases k <;> rfl
  all_goals rfl

/-- With a machine, the call is its own. -/
theorem call_current {α : Type} (k : Binding.Call α) (vm : Sandbox) :
    (sandboxServer checks).backend.call (.machine k) (some vm) =
      ((Sandbox.machine.binding.call k vm).1, some (Sandbox.machine.binding.call k vm).2) := by
  rcases k with k | _ | _ | _
  · cases k <;> rfl
  all_goals rfl

/-- A call fails if the machine fails in it, and without a machine in any case. -/
def Fails {α : Type} (k : Binding.Call α) : Option Sandbox → Failure → Prop
  | some vm, e => (Sandbox.machine.binding.call k vm).1 = .error e
  | none, e => e = .plain "no current VM; call VMWrapper.NewVM first"

/-- What is done for a request that asks for something, and what the response tells of it. -/
inductive Performed (checks : Checks) (reply : Response) :
    {α : Type} → Codec α → Demand α → Option Sandbox → Option Sandbox → Prop
  | setting {α : Type} {c : Codec α} {view : Checks → α} {s : Option Sandbox}
      (told : reply.result = some (c.store (view checks))) :
    Performed checks reply c (.setting view) s s
  | newVm {c : Codec Unit} {test : Option String} {s : Option Sandbox}
      (told : reply.result = some (c.store ())) :
    Performed checks reply c (.call (.newVm test)) s (some {})
  | ran {α : Type} {c : Codec α} {k : Binding.Call α} {vm vm' : Sandbox} {x : α}
      (call : Sandbox.machine.binding.call k vm = (.ok x, vm'))
      (told : reply.result = some (c.store x)) :
    Performed checks reply c (.call (.machine k)) (some vm) (some vm')
  | failed {α : Type} {c : Codec α} {k : Binding.Call α} {vm vm' : Sandbox} {e : Failure}
      (call : Sandbox.machine.binding.call k vm = (.error e, vm')) (untold : reply.result = none) :
    Performed checks reply c (.call (.machine k)) (some vm) (some vm')
  | missing {α : Type} {c : Codec α} {k : Binding.Call α} (untold : reply.result = none) :
    Performed checks reply c (.call (.machine k)) none none

namespace Performed
variable {reply : Response} {s' : Option Sandbox}

theorem of_newVm {c : Codec Unit} {test : Option String}
    (h : Performed checks reply c (.call (.newVm test)) s s') :
    reply.result = some (c.store ()) ∧ s' = some {} := by
  cases h with
  | newVm told => exact ⟨told, rfl⟩

theorem of_ok {α : Type} {c : Codec α} {k : Binding.Call α} {vm vm' : Sandbox} {x : α}
    (h : Performed checks reply c (.call (.machine k)) (some vm) s')
    (hcall : Sandbox.machine.binding.call k vm = (.ok x, vm')) :
    reply.result = some (c.store x) ∧ s' = some vm' := by
  cases h with
  | ran call told =>
    cases call.symm.trans hcall
    exact ⟨told, rfl⟩
  | failed call => cases call.symm.trans hcall

theorem begun {α : Type} {c : Codec α} {d : Demand α} (h : Performed checks reply c d s s')
    (hbegins : d.Begins) : s' = some {} := by
  cases h with
  | newVm told => rfl
  | _ => exact hbegins.elim

theorem idle {α : Type} {c : Codec α} {d : Demand α} (h : Performed checks reply c d none s')
    (hnone : d.Begins → reply.result = none) : s' = none := by
  cases h with
  | setting told => rfl
  | newVm told => cases told.symm.trans (hnone trivial)
  | missing untold => rfl

end Performed

/-- The answer to a request, and the machine after it, are what the request deserves. -/
structure Answered (checks : Checks) (r : Request) (s : Option Sandbox) (reply : Response)
    (s' : Option Sandbox) : Prop where
  numbered : reply.id = r.id
  exclusive : (∃ v, reply.result = some v ∧ reply.fault = none) ∨
    ∃ fault, reply.result = none ∧ reply.fault = some fault
  unserved : reply.Faults .unknownMethod ↔ r.method ∉ Service.names
  refused : reply.Faults .invalidParams ↔
    r.method ∈ Service.withParams ∧ ∀ (α : Type) (d : Demand α), ¬ r.Asks d
  failed : ∀ message, reply.fault = some { kind := .backend, message } ↔
    ∃ (α : Type) (k : Binding.Call α) (e : Failure), r.Asks (.call (.machine k)) ∧ Fails k s e ∧
      e.isOverflow = false ∧ e.toText = message
  stopped : reply.Faults .internal ↔
    ∃ (α : Type) (k : Binding.Call α) (e : Failure), r.Asks (.call (.machine k)) ∧ Fails k s e ∧
      e.isOverflow = true
  performed : ∀ v ∈ Service.all, v.method.name = r.method →
    ∀ p, v.method.params.ofOpaque r.params = .ok p →
      Performed checks reply v.method.result (v.asks p) s s'
  untouched : reply.Faults .unknownMethod ∨ reply.Faults .invalidParams → s' = s

namespace Server

theorem fails_iff {α : Type} {k : Binding.Call α} {e : Failure} :
    ((sandboxServer checks).backend.call (.machine k) s).1 = .error e ↔ Fails k s e := by
  cases s with
  | none =>
    rw [call_idle, Fails, Except.error.injEq]
    exact eq_comm
  | some vm =>
    rw [call_current]
    rfl

/-- Faults that are not the request's own are those of calls that fail. -/
theorem fault_iff_fails {fault : Fault} (hkind : fault.kind = .backend ∨ fault.kind = .internal) :
    ((sandboxServer checks).dispatch r s).1.fault = some fault ↔
      ∃ (α : Type) (k : Binding.Call α) (e : Failure), r.Asks (.call (.machine k)) ∧
        Fails k s e ∧ faultOf e = fault := by
  refine (Backend.fault_dispatch.trans (Backend.carryOut_failed_iff hkind)).trans ⟨?_, ?_⟩
  · rintro ⟨α, k, e, hasks, he, hfault⟩
    cases k with
    | newVm test => cases he
    | machine k => exact ⟨α, k, e, hasks, fails_iff.mp he, hfault⟩
  · rintro ⟨α, k, e, hasks, he, hfault⟩
    exact ⟨α, .machine k, e, hasks, fails_iff.mpr he, hfault⟩

/-- What is asked for is done on the machine, and its result is told. -/
theorem performed_meet {α : Type} (c : Codec α) (d : Demand α) (id : UInt64) :
    let done := d.meet (sandboxServer checks).backend checks s
    Performed checks (.ofOutcome id ((done.1.mapError faultOf).map c.store)) c d s done.2 := by
  cases d with
  | setting view => exact .setting rfl
  | call k =>
    cases k with
    | newVm test => exact .newVm rfl
    | machine k =>
      cases s with
      | none =>
        rw [Demand.meet, call_idle]
        exact .missing rfl
      | some vm =>
        rw [Demand.meet, call_current]
        rcases hrun : Sandbox.machine.binding.call k vm with ⟨e | x, vm'⟩
        · exact .failed hrun rfl
        · exact .ran hrun rfl

theorem performed_dispatch {v : Service} (hv : v ∈ Service.all)
    (hname : v.method.name = r.method) {p : v.params}
    (hdecoded : v.method.params.ofOpaque r.params = .ok p) :
    Performed checks ((sandboxServer checks).dispatch r s).1 v.method.result (v.asks p) s
      ((sandboxServer checks).dispatch r s).2 := by
  have hdone := Backend.carryOut_decoded (sandboxServer checks).backend checks hv hname hdecoded s
  have hreply : (sandboxServer checks).dispatch r s =
      (.ofOutcome r.id ((sandboxServer checks).backend.carryOut checks r s).1,
        ((sandboxServer checks).backend.carryOut checks r s).2) := rfl
  rw [hreply, hdone]
  exact performed_meet v.method.result (v.asks p) r.id

variable (checks s) in
theorem performed_of_asks {α : Type} {d : Demand α} (h : r.Asks d) :
    ∃ c, Performed checks ((sandboxServer checks).dispatch r s).1 c d s
      ((sandboxServer checks).dispatch r s).2 := by
  obtain ⟨hv, hname, hdecoded⟩ := h
  exact ⟨_, performed_dispatch hv hname hdecoded⟩

variable (checks r s) in
theorem answered : Answered checks r s ((sandboxServer checks).dispatch r s).1
    ((sandboxServer checks).dispatch r s).2 where
  numbered := by
    unfold dispatch Backend.dispatch
    rcases (sandboxServer checks).backend.carryOut _ r s with ⟨_ | v, s'⟩ <;> rfl
  exclusive := by
    unfold dispatch Backend.dispatch
    rcases (sandboxServer checks).backend.carryOut _ r s with ⟨fault | v, s'⟩
    · exact .inr ⟨fault, rfl, rfl⟩
    · exact .inl ⟨v, rfl, rfl⟩
  unserved := by
    simp only [Response.Faults, dispatch, Backend.fault_dispatch]
    exact Backend.carryOut_unserved_iff
  refused := by
    simp only [Response.Faults, dispatch, Backend.fault_dispatch]
    exact Backend.carryOut_refused_iff.trans Backend.refused_iff
  failed message := by
    rw [fault_iff_fails (.inl rfl)]
    simp only [faultOf_eq_backend]
  stopped := by
    constructor
    · rintro ⟨message, hfault⟩
      obtain ⟨α, k, e, hasks, he, hof⟩ := (fault_iff_fails (.inr rfl)).mp hfault
      exact ⟨α, k, e, hasks, he, faultOf_eq_internal.mp (by rw [hof])⟩
    · rintro ⟨α, k, e, hasks, he, hover⟩
      have hkind := faultOf_eq_internal.mpr hover
      refine ⟨(faultOf e).message, (fault_iff_fails (.inr rfl)).mpr ⟨α, k, e, hasks, he, ?_⟩⟩
      rw [← hkind]
  performed v hv hname p hdecoded := performed_dispatch hv hname hdecoded
  untouched := by
    simp only [Response.Faults, dispatch, Backend.fault_dispatch, Backend.snd_dispatch]
    rintro (h | h)
    · rw [Backend.carryOut_unserved (Backend.carryOut_unserved_iff.mp h)]
    · obtain ⟨e, h⟩ := Backend.carryOut_refused_iff.mp h
      rw [Backend.carryOut_refused h]

theorem dispatch_looker (h : r.method ∈ Service.lookers) :
    ((sandboxServer checks).dispatch r s).2 = s := by
  rcases r.unserved_or_refused_or_asks with hr | ⟨e, hr⟩ | ⟨α, d, hr⟩
  · exact congrArg Prod.snd (Backend.carryOut_unserved hr s)
  · exact congrArg Prod.snd (Backend.carryOut_refused hr s)
  · obtain ⟨c, hc⟩ := Backend.carryOut_asks (sandboxServer checks).backend checks hr s
    exact (congrArg Prod.snd hc).trans (hr.by_method.1 h).leaves

/-- A request for a new machine that is answered with a result leaves a new machine. -/
theorem dispatch_newVm (hname : r.method = Method.newVm.name)
    (hdone : ((sandboxServer checks).dispatch r s).1.result ≠ none) :
    ((sandboxServer checks).dispatch r s).2 = some {} := by
  let b := (sandboxServer checks).backend
  have hresult : ∀ fault s', b.carryOut checks r s ≠ (.error fault, s') := by
    intro fault s' hfault
    refine hdone ?_
    change (Response.ofOutcome r.id (b.carryOut checks r s).1).result = none
    rw [hfault]
    rfl
  rcases r.unserved_or_refused_or_asks with hr | ⟨e, hr⟩ | ⟨α, d, hr⟩
  · exact absurd (Backend.carryOut_unserved hr s) (hresult _ _)
  · exact absurd (Backend.carryOut_refused hr s) (hresult _ _)
  · obtain ⟨c, hc⟩ := performed_of_asks checks s hr
    exact hc.begun (hr.by_method.2.mpr hname)

/-- Without a machine, only a new machine makes a difference. -/
theorem dispatch_idle
    (h : r.method = Method.newVm.name → ((sandboxServer checks).dispatch r none).1.result = none) :
    ((sandboxServer checks).dispatch r none).2 = none := by
  rcases r.unserved_or_refused_or_asks with hr | ⟨e, hr⟩ | ⟨α, d, hr⟩
  · exact congrArg Prod.snd (Backend.carryOut_unserved hr none)
  · exact congrArg Prod.snd (Backend.carryOut_refused hr none)
  · obtain ⟨c, hc⟩ := performed_of_asks checks none hr
    exact hc.idle (fun hbegins => h (hr.by_method.2.mp hbegins))

variable {σ : Type} (server : Server σ)

/-- The answers to requests one after the other, and the machine after them. -/
def answerAll (rs : List Request) (s : Option σ) : List Response × Option σ :=
  server.backend.answerAll server.checks rs s

/-- After past requests, a request for a new machine is answered with a result. -/
def Renews (past : List Request) (s : Option σ) (r : Request) : Prop :=
  r.method = Method.newVm.name ∧ (server.dispatch r (server.answerAll past s).2).1.result ≠ none

/-- A server that was just started answers none of the requests with a new machine. -/
def Idle (past : List Request) : Prop :=
  ∀ q ∈ past.zip (server.answerAll past none).1, q.1.method = Method.newVm.name → q.2.result = none

/-- Before there is a machine, nothing that is asked makes one but a request for it. -/
theorem answerAll_idle {past : List Request} (h : (sandboxServer checks).Idle past) :
    ((sandboxServer checks).answerAll past none).2 = none := by
  induction past with
  | nil => rfl
  | cons r rs ih =>
    let server := sandboxServer checks
    have hnone : (server.dispatch r none).2 = none :=
      dispatch_idle (h (r, (server.dispatch r none).1) List.mem_cons_self)
    have hrest : server.answerAll (r :: rs) none =
        ((server.dispatch r none).1 :: (server.answerAll rs none).1, (server.answerAll rs none).2) := by
      have hcons : server.answerAll (r :: rs) none = ((server.dispatch r none).1 ::
          (server.answerAll rs (server.dispatch r none).2).1,
          (server.answerAll rs (server.dispatch r none).2).2) := rfl
      rw [hcons, hnone]
    rw [hrest]
    refine ih (fun q hq => h q ?_)
    rw [hrest]
    exact List.mem_cons_of_mem _ hq

end Server

/-- Every request is answered as it deserves, and what only looks changes nothing. Until a machine is
asked for there is none. Once there is a new machine, answers do not depend on what was before. -/
theorem requests_answered (checks : Checks) :
    let server := sandboxServer checks
    (∀ r s, Answered checks r s (server.dispatch r s).1 (server.dispatch r s).2) ∧
    (∀ r s, r.method ∈ Service.lookers → (server.dispatch r s).2 = s) ∧
    (∀ past, server.Idle past → ∀ (r : Request) (α : Type) (k : Binding.Call α),
      r.Asks (.call (.machine k)) →
        (server.dispatch r (server.answerAll past none).2).1.fault =
          some { kind := .backend, message := "no current VM; call VMWrapper.NewVM first" }) ∧
    ∀ past past' s s' new new', server.Renews past s new → server.Renews past' s' new' →
      ∀ later later', List.Forall₂ Request.Alike later later' →
        List.Forall₂ Response.Alike
          (server.answerAll later (server.dispatch new (server.answerAll past s).2).2).1
          (server.answerAll later' (server.dispatch new' (server.answerAll past' s').2).2).1 := by
  intro server
  refine ⟨Server.answered checks, fun r s => Server.dispatch_looker,
    fun past hidle r α k hasks => ?_, ?_⟩
  · rw [Server.answerAll_idle hidle]
    exact ((Server.answered checks r none).failed _).mpr ⟨α, k, _, hasks, rfl, rfl, rfl⟩
  · intro past past' s s' new new' hnew hnew' later later' hlater
    rw [Server.dispatch_newVm hnew.1 hnew.2, Server.dispatch_newVm hnew'.1 hnew'.2]
    exact Backend.answerAll_alike hlater _

section Session

def askRoot (id : UInt64) : Request := { id, method := "VMWrapper.Root" }

def askNewVm : Request :=
  { id := 7, method := "VMWrapper.NewVM", params := Method.newVmParams.store none }

def askPut : Request :=
  { id := 8, method := "VMWrapper.StorePut", params := Method.storePutParams.store [1, 2] }

def askLost : Request :=
  { id := 9, method := "VMWrapper.StoreGet", params := Method.storeGetParams.store ⟨"b0"⟩ }

/-- The root is asked for in vain. A new machine stores bytes and does not find others. The root is
asked for of a new machine, and of one that replaces another. -/
theorem requests_answered_session :
    let server := sandboxServer {}
    (server.Idle [askRoot 1] ∧ (askRoot 2).Asks (.call (.machine (.vm .root))) ∧
      (server.dispatch (askRoot 2) (server.answerAll [askRoot 1] none).2).1.fault =
        some { kind := .backend, message := "no current VM; call VMWrapper.NewVM first" }) ∧
    (server.dispatch askNewVm none).2 = some {} ∧
    ((server.dispatch askPut (some {})).1.result =
        some (Method.storePutResult.store (.ofBytes [1, 2])) ∧
      (server.dispatch askPut (some {})).2 = some (({} : Sandbox).storePut [1, 2]).2) ∧
    (server.dispatch askLost (some {})).1.fault =
      some { kind := .backend, message := "block b0 not found in store" } ∧
    (askRoot 3).method ∈ Service.lookers ∧
    (server.dispatch (askRoot 3) (some { burnt := 5 })).2 = some { burnt := 5 } ∧
    server.Renews [askRoot 1] none askNewVm ∧ server.Renews [] (some { burnt := 5 }) askNewVm ∧
    List.Forall₂ Request.Alike [askRoot 3] [askRoot 4] ∧
    List.Forall₂ Response.Alike
      (server.answerAll [askRoot 3]
        (server.dispatch askNewVm (server.answerAll [askRoot 1] none).2).2).1
      (server.answerAll [askRoot 4]
        (server.dispatch askNewVm (server.answerAll [] (some { burnt := 5 })).2).2).1 := by
  intro server
  obtain ⟨hanswered, hlook, hidle, hrenew⟩ := requests_answered {}
  have hnever : server.Idle [askRoot 1] := by
    intro q hq hname
    have hfirst : q.1 = askRoot 1 := List.mem_singleton.mp (List.of_mem_zip hq).1
    rw [hfirst] at hname
    exact absurd hname (by decide)
  have hasks : (askRoot 2).Asks (.call (.machine (.vm .root))) := Request.asks_root 2 .null
  have hnewVm : ∀ s, (server.dispatch askNewVm s).1.result = some (Method.empty.store ()) ∧
      (server.dispatch askNewVm s).2 = some {} := fun s =>
    ((hanswered askNewVm s).performed
      { method := .newVm, asks := fun test => .call (.newVm test) } (by simp [Service.all]) rfl none
      (Method.newVmParams_carries none).ofOpaque_store).of_newVm
  have hput := ((hanswered askPut (some {})).performed
    { method := .storePut, asks := fun data => .call (.machine (.vm (.storePut data))) }
    (by simp [Service.all]) rfl [1, 2]
    (Method.single_carries _ _ (Codec.carries_bytes [1, 2])).ofOpaque_store).of_ok rfl
  have hlost : askLost.Asks (.call (.machine (.vm (.storeGet ⟨"b0"⟩)))) :=
    .intro (v := { method := .storeGet, asks := fun cid => .call (.machine (.vm (.storeGet cid))) })
      (by simp [Service.all]) rfl (Method.single_carries _ _ (Cid.carries ⟨"b0"⟩)).ofOpaque_store
  have hfault := ((hanswered askLost (some {})).failed "block b0 not found in store").mpr
    ⟨_, _, .ofMachine (.blockNotFound ⟨"b0"⟩), hlost, rfl, rfl, by decide⟩
  have hnew : ∀ past s, server.Renews past s askNewVm :=
    fun past s => ⟨rfl, by rw [(hnewVm _).1]; exact Option.some_ne_none _⟩
  have halike : List.Forall₂ Request.Alike [askRoot 3] [askRoot 4] := .cons ⟨rfl, rfl⟩ .nil
  have hlooker : (askRoot 3).method ∈ Service.lookers := by decide
  exact ⟨⟨hnever, hasks, hidle _ hnever _ _ _ hasks⟩, (hnewVm none).2, hput, hfault, hlooker,
    hlook _ _ hlooker, hnew _ _, hnew _ _, halike,
    hrenew _ _ _ _ _ _ (hnew _ _) (hnew _ _) _ _ halike⟩

end Session

end Conformance.Rpc
