import Conformance.Proofs.Rpc.Serving
import Conformance.Proofs.Sandbox.Overflow
import Conformance.Runner

namespace Conformance

namespace Rpc
variable {σ π ρ : Type}

/-- A result that is not null is not stored as null. -/
theorem store_ne_null {c : Codec ρ} {x : ρ} (h : c.Carries x) (hnull : c.encode x ≠ .null) :
    (c.store x).json ≠ .null := by
  obtain ⟨k, hk, _⟩ := h.normal
  unfold Codec.store Opaque.ofJson?
  split
  · rename_i k' hk'
    exact Json.normalize_ne_null hnull hk'
  · rename_i hnone
    rw [hk] at hnone
    cases hnone

/-- A handler whose parameters arrive does what it stands for. -/
theorem Server.handle_store {τ : Type} {m : Method π ρ} {f : π → Op τ ρ} {p : π}
    (hparams : m.params.Carries p) (s : τ) :
    (handler m f).handle (m.params.store p) s =
      (((f p s).1.mapError faultOf).map m.result.store, (f p s).2) := by
  simp only [handler, hparams.ofOpaque_store]
  rcases f p s with ⟨_ | x, s'⟩ <;> rfl

/-- A response to the request asked is read as what it answers. -/
theorem Client.interpret_ofOutcome {m : Method π ρ} (id : UInt64) {outcome : Except Fault ρ}
    (hresult : ∀ x, outcome = .ok x → m.result.Carries x ∧ m.result.encode x ≠ .null) :
    interpret m id
        { value := Response.codec.encode (.ofOutcome id (outcome.map m.result.store)) } =
      outcome.mapError (.ofFault m.name) := by
  have hresponse : Response.codec.Carries (.ofOutcome id (outcome.map m.result.store)) := by
    refine Response.carries_ofOutcome id (fun v hv => ?_)
    cases outcome with
    | error fault => cases hv
    | ok x =>
      obtain ⟨hx, hnull⟩ := hresult x rfl
      exact Except.ok.inj hv ▸ store_ne_null hx hnull
  simp only [interpret, hresponse.plain]
  cases outcome with
  | error fault => simp [Response.ofOutcome, Except.map]
  | ok x =>
    simp [Response.ofOutcome, Except.map, (hresult x rfl).1.ofOpaque_store]

/-- A call over a direct link ends as its handler does. -/
theorem Client.call_direct (c : Client) (server : Server σ) {m : Method π ρ}
    {f : π → Op (Option σ) ρ}
    (hfind : (server.backend.handlers server.checks).find? (·.method = m.name) =
      some (Server.handler m f)) {p : π}
    (hparams : m.params.Carries p) {s : Option σ} (id : UInt64)
    (hresult : ∀ x, (f p s).1 = .ok x → m.result.Carries x ∧ m.result.encode x ≠ .null) :
    c.call (.direct server) m p { peer := s, nextId := id } =
      ((f p s).1.mapError (fun e => .ofFault m.name (Server.faultOf e)),
        { peer := (f p s).2, nextId := id + 1 }) := by
  have hdispatch : server.dispatch { id, method := m.name, params := m.params.store p } s =
      (.ofOutcome id (((f p s).1.mapError Server.faultOf).map m.result.store), (f p s).2) := by
    simp only [Server.dispatch, Backend.dispatch, Backend.carryOut, hfind,
      Server.handle_store hparams]
  have hfault : ∀ x, (f p s).1.mapError Server.faultOf = .ok x → (f p s).1 = .ok x := by
    intro x hx
    rcases hf : (f p s).1 with _ | y
    · simp [hf] at hx
    · simpa [hf] using hx
  have hread := interpret_ofOutcome id (fun x hx => hresult x (hfault x hx))
  simp only [Link.direct, call_lossless, hdispatch, hread]
  rcases (f p s).1 with _ | y <;> rfl

/-- A failure of the machine as it shows to the client. -/
def farFailure (method : String) (e : Failure) : Failure :=
  .ofRpc (.ofFault method (Server.faultOf e))

/-- A call that does a step on the current machine and whose parameters and results arrive. -/
structure Serves (server : Server σ) (m : Method π ρ) (p : π) (op : Op σ ρ) : Prop where
  found : ∃ f, (server.backend.handlers server.checks).find? (·.method = m.name) =
    some (Server.handler m f) ∧ f p = Server.onCurrent op
  params : m.params.Carries p
  result : ∀ s x, (op s).1 = .ok x → m.result.Carries x ∧ m.result.encode x ≠ .null

namespace Remote
variable {c : Client} {server : Server σ} {m : Method π ρ} {p : π} {op : Op σ ρ}
  {r : Remote (Option σ)} {s s' : σ} {x : ρ} {e : Failure}

/-- The handle once a call has left the machine in a state, with what it knows of the root. -/
def moved (r : Remote (Option σ)) (s : σ) (root : Option Cid) : Remote (Option σ) where
  session := { peer := some s, nextId := r.session.nextId + 1 }
  root := root

theorem ask_serves (h : Serves server m p op) (hpeer : r.session.peer = some s) :
    ask c (.direct server) m p r =
      ((op s).1.mapError (farFailure m.name), r.moved (op s).2 r.root) := by
  obtain ⟨f, hfind, hf⟩ := h.found
  obtain ⟨⟨peer, id⟩, root⟩ := r
  obtain rfl : peer = some s := hpeer
  have hstep : f p (some s) = ((op s).1, some (op s).2) := by rw [hf]; rfl
  have hcall := c.call_direct server hfind h.params (s := some s) id (fun x hx => by
    rw [hstep] at hx
    exact h.result s x hx)
  rw [hstep] at hcall
  simp only [ask, hcall, moved]
  rcases (op s).1 with _ | y <;> rfl

theorem command_serves (h : Serves server m p op) (hpeer : r.session.peer = some s) :
    command c (.direct server) m p r =
      ((op s).1.mapError (farFailure m.name), r.moved (op s).2 none) :=
  ask_serves (r := { r with root := none }) h hpeer

theorem application_ok (h : Serves server m p op) (hpeer : r.session.peer = some s)
    (root : ρ → Cid) (hop : op s = (.ok x, s')) :
    application c (.direct server) m p root r = (.ok x, r.moved s' (some (root x))) := by
  have hcommand := command_serves (c := c) h hpeer
  rw [hop] at hcommand
  exact Op.bind_ok hcommand

theorem application_error (h : Serves server m p op) (hpeer : r.session.peer = some s)
    (root : ρ → Cid) (hop : op s = (.error e, s')) :
    application c (.direct server) m p root r = (.error (farFailure m.name e), r.moved s' none) := by
  have hcommand := command_serves (c := c) h hpeer
  rw [hop] at hcommand
  exact Op.bind_error hcommand

end Remote

/-- The sandbox behind a server that wants some checks. -/
def sandboxServer (checks : Checks) : Server Sandbox := { Scenario.ownServer with checks }

section Opening
variable (c : Client) (checks : Checks)

/-- A setting is told from whatever the server has done, and telling it does nothing. -/
theorem Client.setting_direct {α : Type} (m : Method Unit α) (view : Checks → α)
    (hfind : ((sandboxServer checks).backend.handlers checks).find? (·.method = m.name) =
      some (Server.handler m (fun _ => pure (view checks))))
    (hparams : m.params.Carries ()) (hresult : m.result.Carries (view checks))
    (hnull : m.result.encode (view checks) ≠ .null) (session : Session (Option Sandbox)) :
    c.call (.direct (sandboxServer checks)) m () session =
      (.ok (view checks), { session with nextId := session.nextId + 1 }) :=
  c.call_direct (sandboxServer checks) hfind hparams session.nextId
    (fun _ hx => Except.ok.inj hx ▸ ⟨hresult, hnull⟩)

/-- The checks of a server arrive whatever it has done before, and it does not change. -/
theorem Client.checks_direct (session : Session (Option Sandbox)) :
    c.checks (.direct (sandboxServer checks)) session =
      (.ok checks, { session with nextId := session.nextId + 1 + 1 + 1 + 1 + 1 }) := by
  have hgas := c.setting_direct checks .checkGas (·.gas) rfl Method.ignored_carries
    (Codec.carries_bool _) (by simp [Method.checkGas, Method.setting, Codec.bool])
  have hexitCode := c.setting_direct checks .checkExitCode (·.exitCode) rfl Method.ignored_carries
    (Codec.carries_bool _) (by simp [Method.checkExitCode, Method.setting, Codec.bool])
  have hreturn := c.setting_direct checks .checkReturnValue (·.returnValue) rfl
    Method.ignored_carries (Codec.carries_bool _)
    (by simp [Method.checkReturnValue, Method.setting, Codec.bool])
  have hroot := c.setting_direct checks .checkStateRoot (·.stateRoot) rfl Method.ignored_carries
    (Codec.carries_bool _) (by simp [Method.checkStateRoot, Method.setting, Codec.bool])
  have hsuites := c.setting_direct checks .suites (·.suites) rfl Method.ignored_carries
    (Codec.carries_list (fun s _ => Codec.carries_string s))
    (by simp [Method.suites, Method.setting, Codec.list])
  simp only [Client.checks, bind, ExceptT.bind, ExceptT.mk, ExceptT.bindCont, StateT.bind, hgas,
    hexitCode, hreturn, hroot, hsuites]
  rfl

/-- A server starts a new sandbox on request, whatever it has done before. -/
theorem Remote.start_direct (test : Option String) (session : Client.Session (Option Sandbox)) :
    start c (.direct (sandboxServer checks)) test session =
      (.ok { session := { peer := some {}, nextId := session.nextId + 1 } },
        { peer := some {}, nextId := session.nextId + 1 }) := by
  have hcall := c.call_direct (sandboxServer checks) (m := .newVm)
    (f := fun _ _ => (.ok (), some {})) rfl (Method.newVmParams_carries test) (s := session.peer)
    session.nextId (fun _ _ => ⟨Method.empty_carries, record_ne_null⟩)
  unfold start
  rw [hcall]
  rfl

end Opening

namespace Method
variable (checks : Checks)

theorem serves_root : Serves (sandboxServer checks) root () Sandbox.vm.root where
  found := ⟨_, rfl, rfl⟩
  params := ignored_carries
  result _ x _ := ⟨single_carries _ _ (Cid.carries x), record_ne_null⟩

theorem serves_storeGet (cid : Cid) :
    Serves (sandboxServer checks) storeGet cid (Sandbox.vm.storeGet cid) where
  found := ⟨_, rfl, rfl⟩
  params := single_carries _ _ (Cid.carries cid)
  result _ x _ := ⟨single_carries _ _ (Codec.carries_bytes x), record_ne_null⟩

theorem serves_storePut (data : Bytes) :
    Serves (sandboxServer checks) storePut data (Sandbox.vm.storePut data) where
  found := ⟨_, rfl, rfl⟩
  params := single_carries _ _ (Codec.carries_bytes data)
  result _ x _ := ⟨single_carries _ _ (Cid.carries x), record_ne_null⟩

theorem serves_actor {a : Address} (h : a.Proper) :
    Serves (sandboxServer checks) actor a (Sandbox.vm.actor a) where
  found := ⟨_, rfl, rfl⟩
  params := single_carries _ _ (Address.carries h)
  result _ x _ := ⟨actorResult_carries x, record_ne_null⟩

theorem serves_setActorState {a : Address} (h : a.Proper) (balance : TokenAmount) (head : Cid) :
    Serves (sandboxServer checks) setActorState (a, balance, head)
      (Sandbox.vm.setActorState a balance head) where
  found := ⟨_, rfl, rfl⟩
  params := setActorStateParams_carries h balance head
  result _ x _ := ⟨single_carries _ _ (Actor.carries x), record_ne_null⟩

/-- The address that a new actor is given is an ID. -/
theorem serves_createActor (code : Cid) {a : Address} (h : a.Proper) (balance : TokenAmount)
    (head : Cid) :
    Serves (sandboxServer checks) createActor (code, a, balance, head)
      (Sandbox.vm.createActor code a balance head) where
  found := ⟨_, rfl, rfl⟩
  params := createActorParams_carries code h balance head
  result s x hx := by
    refine ⟨?_, record_ne_null⟩
    rcases hop : Sandbox.vm.createActor code a balance head s with ⟨r, s'⟩
    rw [hop] at hx
    obtain rfl : r = .ok x := hx
    simp only [Sandbox.vm] at hop
    obtain ⟨_, _, id, hid, _⟩ := Sandbox.createActor_ok (Op.ofUpdate_ok hop)
    exact createActorResult_carries x.1 (by rw [hid]; trivial)

theorem serves_applyMessage {ctx : ExecutionContext} {m : Message} (hminer : ctx.miner.Proper)
    (h : m.Proper) :
    Serves (sandboxServer checks) applyMessage (ctx, m) (Sandbox.machine.binding.message ctx m) where
  found := ⟨_, rfl, rfl⟩
  params := applyParams_carries _ hminer (Message.carries h)
  result _ x _ := ⟨MessageResult.carries _ x, record_ne_null⟩

theorem serves_applySigned {ctx : ExecutionContext} {m : SignedMessage}
    (hminer : ctx.miner.Proper) (h : m.message.Proper) :
    Serves (sandboxServer checks) applySigned (ctx, m) (Sandbox.machine.binding.signed ctx m) where
  found := ⟨_, rfl, rfl⟩
  params := applyParams_carries _ hminer (SignedMessage.carries h)
  result _ x _ := ⟨MessageResult.carries _ x, record_ne_null⟩

theorem serves_applyTipSet (epoch : Int64) {blocks : List Block} (h : ∀ b ∈ blocks, b.Proper)
    (randomness : Randomness) :
    Serves (sandboxServer checks) applyTipSet (epoch, blocks, randomness)
      (Sandbox.machine.binding.tipSet blocks epoch randomness) where
  found := ⟨_, rfl, rfl⟩
  params := applyTipSetParams_carries epoch h randomness
  result _ x _ := ⟨TipSetResult.carries _ x, record_ne_null⟩

end Method

end Rpc

/-- The addresses that a call of a machine sends along are proper. -/
def Vm.Call.Proper : {α : Type} → Vm.Call α → Prop
  | _, .actor a => a.Proper
  | _, .setActorState a _ _ => a.Proper
  | _, .createActor _ a _ _ => a.Proper
  | _, _ => True

/-- The addresses that a call sends along are proper. -/
def Binding.Call.Proper : {α : Type} → Binding.Call α → Prop
  | _, .vm c => c.Proper
  | _, .message ctx m => ctx.miner.Proper ∧ m.Proper
  | _, .signed ctx m => ctx.miner.Proper ∧ m.message.Proper
  | _, .tipSet blocks _ _ => ∀ b ∈ blocks, b.Proper

/-- The name of the method that a call of a machine goes by. -/
def Vm.Call.method : {α : Type} → Vm.Call α → String
  | _, .root => Rpc.Method.root.name
  | _, .storeGet _ => Rpc.Method.storeGet.name
  | _, .storePut _ => Rpc.Method.storePut.name
  | _, .actor _ => Rpc.Method.actor.name
  | _, .setActorState _ _ _ => Rpc.Method.setActorState.name
  | _, .createActor _ _ _ _ => Rpc.Method.createActor.name

/-- The name of the method that a call goes by. -/
def Binding.Call.method : {α : Type} → Binding.Call α → String
  | _, .vm c => c.method
  | _, .message _ _ => Rpc.Method.applyMessage.name
  | _, .signed _ _ => Rpc.Method.applySigned.name
  | _, .tipSet _ _ _ => Rpc.Method.applyTipSet.name

namespace Sandbox
variable {s s' : Sandbox}

/-- The root that an application reports is the root it leaves behind. -/
theorem withRoot_ok {op : Op Sandbox Outcome} {x : MessageResult}
    (h : machine.binding.withRoot op s = (.ok x, s')) :
    op s = (.ok (Rpc.Remote.outcomeOf x), s') ∧ x.root = s'.root := by
  rcases hop : op s with ⟨e | o, t⟩
  · rw [Binding.withRoot, Op.bind_error hop] at h
    cases (Prod.mk.inj h).1
  · rw [Binding.withRoot, Op.bind_ok hop] at h
    obtain ⟨hx, rfl⟩ := Prod.mk.inj h
    cases hx
    exact ⟨rfl, rfl⟩

theorem tipSet_ok {blocks : List Block} {epoch : Int64} {randomness : Randomness}
    {x : TipSetResult} (h : machine.binding.tipSet blocks epoch randomness s = (.ok x, s')) :
    x.root = s'.root := by
  rcases hop : machine.binding.applyTipSet blocks epoch randomness s with ⟨e | o, t⟩
  · rw [Binding.tipSet, Op.bind_error hop] at h
    cases (Prod.mk.inj h).1
  · rw [Binding.tipSet, Op.bind_ok hop] at h
    obtain ⟨hx, rfl⟩ := Prod.mk.inj h
    cases hx
    rfl

end Sandbox

namespace Rpc

/-- The handle is on a server with this machine, and knows no other root than its root. -/
structure Mirrors (r : Remote (Option Sandbox)) (s : Sandbox) : Prop where
  peer : r.session.peer = some s
  root : ∀ root, r.root = some root → root = s.root

namespace Mirrors
variable {c : Client} {checks : Checks} {r : Remote (Option Sandbox)} {s : Sandbox}

theorem moved_none (r : Remote (Option Sandbox)) (s : Sandbox) : Mirrors (r.moved s none) s :=
  ⟨rfl, fun _ h => by cases h⟩

theorem moved_root (r : Remote (Option Sandbox)) (s : Sandbox) : Mirrors (r.moved s (some s.root)) s :=
  ⟨rfl, fun _ h => (Option.some.inj h).symm⟩

variable (h : Mirrors r s)
include h

/-- The root is the server's, whether it was kept or is asked for. -/
theorem readRoot : ∃ r', Remote.readRoot c (.direct (sandboxServer checks)) r = (.ok s.root, r') ∧
    Mirrors r' s := by
  unfold Remote.readRoot
  split
  · rename_i root hroot
    exact ⟨r, by rw [h.root root hroot], h⟩
  · rename_i hnone
    have hask := Remote.ask_serves (c := c) (Method.serves_root checks) h.peer
    exact ⟨{ r.moved s r.root with root := some s.root }, Op.bind_ok hask, moved_root r s⟩

/-- A question has the answer it has in place. -/
theorem ask {π ρ : Type} {m : Method π ρ} {p : π} {op : Op Sandbox ρ}
    (hserves : Serves (sandboxServer checks) m p op) (hview : (op s).2 = s) :
    ∃ r', Remote.ask c (.direct (sandboxServer checks)) m p r =
      ((op s).1.mapError (farFailure m.name), r') ∧ Mirrors r' (op s).2 := by
  refine ⟨_, Remote.ask_serves hserves h.peer, rfl, ?_⟩
  rw [hview]
  exact h.root

theorem command {π ρ : Type} {m : Method π ρ} {p : π} {op : Op Sandbox ρ}
    (hserves : Serves (sandboxServer checks) m p op) :
    ∃ r', Remote.command c (.direct (sandboxServer checks)) m p r =
      ((op s).1.mapError (farFailure m.name), r') ∧ Mirrors r' (op s).2 :=
  ⟨_, Remote.command_serves hserves h.peer, moved_none r _⟩

/-- Applying a message from afar has the result it has in place, the root included. -/
theorem message {ρ : Type} {m : Method ρ MessageResult} {p : ρ} {op : Op Sandbox Outcome}
    (hserves : Serves (sandboxServer checks) m p (Sandbox.machine.binding.withRoot op)) :
    ∃ r', (Remote.binding c (.direct (sandboxServer checks))).withRoot
        (Remote.outcomeOf <$> Remote.application c (.direct (sandboxServer checks)) m p
          (·.root)) r =
      ((Sandbox.machine.binding.withRoot op s).1.mapError (farFailure m.name), r') ∧
        Mirrors r' (Sandbox.machine.binding.withRoot op s).2 := by
  rcases hop : Sandbox.machine.binding.withRoot op s with ⟨e | x, s'⟩
  · have happ := Remote.application_error (c := c) hserves h.peer (·.root) hop
    refine ⟨r.moved s' none, ?_, moved_none r s'⟩
    exact Op.bind_error (Op.bind_error happ)
  · have happ := Remote.application_ok (c := c) hserves h.peer (·.root) hop
    have hroot := (Sandbox.withRoot_ok hop).2
    refine ⟨r.moved s' (some x.root), ?_, hroot ▸ moved_root r s'⟩
    have hmap := Op.bind_ok (f := fun y => pure (Remote.outcomeOf y)) happ
    exact Op.bind_ok hmap

theorem tipSet {blocks : List Block} (hblocks : ∀ b ∈ blocks, b.Proper) (epoch : Int64)
    (randomness : Randomness) :
    ∃ r', (Remote.binding c (.direct (sandboxServer checks))).tipSet blocks epoch randomness r =
      ((Sandbox.machine.binding.tipSet blocks epoch randomness s).1.mapError
        (farFailure Method.applyTipSet.name), r') ∧
        Mirrors r' (Sandbox.machine.binding.tipSet blocks epoch randomness s).2 := by
  have hserves := Method.serves_applyTipSet checks epoch hblocks randomness
  rcases hop : Sandbox.machine.binding.tipSet blocks epoch randomness s with ⟨e | x, s'⟩
  · have happ := Remote.application_error (c := c) hserves h.peer (·.root) hop
    refine ⟨r.moved s' none, ?_, moved_none r s'⟩
    exact Op.bind_error (Op.bind_error happ)
  · have happ := Remote.application_ok (c := c) hserves h.peer (·.root) hop
    have hroot := Sandbox.tipSet_ok hop
    refine ⟨r.moved s' (some x.root), ?_, hroot ▸ moved_root r s'⟩
    have hmap := Op.bind_ok (f := fun y => pure (TipSetResult.receipts y)) happ
    exact Op.bind_ok hmap

variable (c checks) in
/-- Every call has the result from afar that it has in place, and the handle keeps up. -/
theorem call {α : Type} {k : Binding.Call α} (hk : k.Proper) :
    ∃ r', (Remote.binding c (.direct (sandboxServer checks))).call k r =
      ((Sandbox.machine.binding.call k s).1.mapError (farFailure k.method), r') ∧
        Mirrors r' (Sandbox.machine.binding.call k s).2 := by
  cases k with
  | message ctx m => exact h.message (Method.serves_applyMessage checks hk.1 hk.2)
  | signed ctx m => exact h.message (Method.serves_applySigned checks hk.1 hk.2)
  | tipSet blocks epoch randomness => exact h.tipSet hk epoch randomness
  | vm k =>
    cases k with
    | root => exact h.readRoot
    | storeGet cid => exact h.ask (Method.serves_storeGet checks cid) rfl
    | storePut data => exact h.command (Method.serves_storePut checks data)
    | actor a => exact h.ask (Method.serves_actor checks hk) rfl
    | setActorState a balance head =>
      exact h.command (Method.serves_setActorState checks hk balance head)
    | createActor code a balance head =>
      exact h.command (Method.serves_createActor checks code hk balance head)

end Mirrors

end Rpc
end Conformance
