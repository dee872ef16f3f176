import Conformance.Proofs.Machine.Kept

namespace Conformance.Machine

variable {σ α β γ : Type}

/-- A message that a machine applied or failed to apply, with its states before and after. -/
structure Application (σ : Type) where
  before : σ
  message : Message
  length : Nat
  result : Except Failure Outcome
  after : σ

/-- A state with the applications that led to it, in order. -/
structure Logged (σ : Type) where
  state : σ
  log : List (Application σ) := []

/-- A step that applies nothing. -/
def unlogged (op : Op σ α) : Op (Logged σ) α := fun t =>
  ((op t.state).1, { t with state := (op t.state).2 })

/-- What comes of applying a message in a state. -/
def application (m : Machine σ) (epoch : Int64) (miner : Address) (message : Message) (length : Nat)
    (before : σ) : Application σ where
  before
  message
  length
  result := (m.apply epoch miner message length before).1
  after := (m.apply epoch miner message length before).2

/-- The machine with a log. -/
def logged (m : Machine σ) : Machine (Logged σ) where
  root := unlogged m.root
  storeGet cid := unlogged (m.storeGet cid)
  storePut data := unlogged (m.storePut data)
  actor a := unlogged (m.actor a)
  setActorState a balance head := unlogged (m.setActorState a balance head)
  createActor code a balance head := unlogged (m.createActor code a balance head)
  apply epoch miner msg length := fun t =>
    let entry := m.application epoch miner msg length t.state
    (entry.result, { state := entry.after, log := t.log ++ [entry] })
  reward epoch miner penalty gasReward tickets :=
    unlogged (m.reward epoch miner penalty gasReward tickets)
  cron epoch randomness := unlogged (m.cron epoch randomness)

/-- A step on a state with a log goes the way of a step on the state alone, and adds to the log what
depends on the state alone. -/
def Logs (op : Op (Logged σ) α) (plain : Op σ α) : Prop :=
  ∀ s, ∃ new, ∀ log, op ⟨s, log⟩ = ((plain s).1, ⟨(plain s).2, log ++ new⟩)

namespace Logs
variable {op : Op (Logged σ) α} {plain : Op σ α}

theorem unlogged (op : Op σ α) : Logs (Machine.unlogged op) op :=
  fun _ => ⟨[], fun log => by rw [List.append_nil]; rfl⟩

theorem pure (x : α) : Logs (Pure.pure x : Op (Logged σ) α) (Pure.pure x) :=
  fun _ => ⟨[], fun log => by rw [List.append_nil]; rfl⟩

theorem bind (h : Logs op plain) {f : α → Op (Logged σ) β} {g : α → Op σ β}
    (hf : ∀ x, Logs (f x) (g x)) : Logs (op >>= f) (plain >>= g) := by
  intro s
  obtain ⟨new, hop⟩ := h s
  rcases hplain : plain s with ⟨e | x, s'⟩
  · rw [hplain] at hop
    exact ⟨new, fun log => by rw [Op.bind_error (hop log), Op.bind_error hplain]⟩
  · rw [hplain] at hop
    obtain ⟨more, hrest⟩ := hf x s'
    refine ⟨new ++ more, fun log => ?_⟩
    rw [Op.bind_ok (hop log), Op.bind_ok hplain, hrest, List.append_assoc]

theorem within (h : Logs op plain) (context : String) :
    Logs (op.within context) (plain.within context) := by
  intro s
  obtain ⟨new, hop⟩ := h s
  refine ⟨new, fun log => ?_⟩
  unfold Op.within
  rw [hop log]
  rcases plain s with ⟨e | x, s'⟩ <;> rfl

theorem foldlM {f : β → γ → Op (Logged σ) β} {g : β → γ → Op σ β} {cs : List γ}
    (h : ∀ t c, Logs (f t c) (g t c)) (t : β) : Logs (cs.foldlM f t) (cs.foldlM g t) := by
  induction cs generalizing t with
  | nil => exact .pure t
  | cons c cs ih =>
    rw [List.foldlM_cons, List.foldlM_cons]
    exact (h t c).bind ih

/-- From an empty log it can be read off what a step adds to any. -/
theorem eq (h : Logs op plain) (s : σ) (log : List (Application σ)) :
    op ⟨s, log⟩ = ((plain s).1, ⟨(plain s).2, log ++ (op ⟨s, []⟩).2.log⟩) := by
  obtain ⟨new, hop⟩ := h s
  rw [hop log, hop []]
  rfl

end Logs

section Calls
variable (m : Machine σ)

theorem logged_vmCall (c : Vm.Call α) : m.logged.toVm.call c = unlogged (m.toVm.call c) := by
  cases c <;> rfl

theorem logs_vmCall (c : Vm.Call α) : Logs (m.logged.toVm.call c) (m.toVm.call c) := by
  rw [logged_vmCall]
  exact .unlogged _

theorem logs_apply (epoch : Int64) (miner : Address) (msg : Message) (length : Nat) :
    Logs (m.logged.apply epoch miner msg length) (m.apply epoch miner msg length) :=
  fun s => ⟨[m.application epoch miner msg length s], fun _ => rfl⟩

theorem logs_call (c : Call α) : Logs (m.logged.call c) (m.call c) := by
  cases c with
  | vm c => exact logs_vmCall m c
  | apply epoch miner msg length => exact logs_apply m epoch miner msg length
  | reward epoch miner penalty gasReward tickets => exact .unlogged _
  | cron epoch randomness => exact .unlogged _

theorem logs_applyEntry (epoch : Int64) (index : Nat) (miner : Address) (t : Tally)
    (e : Message × Nat) :
    Logs (m.logged.applyEntry epoch index miner t e) (m.applyEntry epoch index miner t e) := by
  unfold Machine.applyEntry
  simp only
  split
  · exact .pure t
  · exact ((logs_apply m epoch miner e.1 e.2).within _).bind (fun _ => .pure _)

theorem logs_applyBlock (epoch : Int64) (t : Tally) (b : Block × Nat) :
    Logs (m.logged.applyBlock epoch t b) (m.applyBlock epoch t b) := by
  unfold Machine.applyBlock
  refine (Logs.foldlM (logs_applyEntry m epoch b.2 b.1.miner) _).bind (fun t => ?_)
  exact ((logs_call m (.reward epoch b.1.miner t.penalty t.reward b.1.tickets)).within _).bind
    (fun _ => .pure t)

theorem logs_applyTipSet (blocks : List Block) (epoch : Int64) (randomness : Randomness) :
    Logs (m.logged.applyTipSet blocks epoch randomness)
      (m.applyTipSet blocks epoch randomness) := by
  unfold Machine.applyTipSet
  refine (Logs.foldlM (logs_applyBlock m epoch) _).bind (fun t => ?_)
  exact ((logs_call m (.cron epoch randomness)).within _).bind (fun _ => .pure _)

/-- The binding of a logged machine goes the way of the machine's binding. -/
theorem logs_drive (k : Binding.Call α) : Logs (m.logged.binding.call k) (m.binding.call k) := by
  have hroot : Logs m.logged.binding.root m.binding.root := logs_vmCall m .root
  cases k with
  | vm c => exact logs_vmCall m c
  | message ctx msg =>
    exact (logs_apply m _ _ _ _).bind (fun _ => hroot.bind (fun _ => .pure _))
  | signed ctx msg =>
    exact (logs_apply m _ _ _ _).bind (fun _ => hroot.bind (fun _ => .pure _))
  | tipSet blocks epoch randomness =>
    exact (logs_applyTipSet m _ _ _).bind (fun _ => hroot.bind (fun _ => .pure _))

end Calls

/-- The states of a machine after calls of it and of its binding, whether or not they succeed, with
the applications that they made. -/
inductive Ran (m : Machine σ) (start : σ) : σ → List (Application σ) → Prop
  | start : Ran m start start []
  | call {s : σ} {log : List (Application σ)} {α : Type} (h : Ran m start s log) (c : Call α) :
    Ran m start (m.call c s).2 (log ++ (m.logged.call c ⟨s, []⟩).2.log)
  | drive {s : σ} {log : List (Application σ)} {α : Type} (h : Ran m start s log)
      (k : Binding.Call α) :
    Ran m start (m.binding.call k s).2 (log ++ (m.logged.binding.call k ⟨s, []⟩).2.log)

/-- A run goes on with a call, whatever the call comes to. -/
theorem Ran.called {m : Machine σ} {start s s' : σ} {log : List (Application σ)}
    (h : m.Ran start s log) (c : Call α) {r : Except Failure α} (hcall : m.call c s = (r, s')) :
    ∃ log', m.Ran start s' log' := by
  have hnext := h.call c
  rw [hcall] at hnext
  exact ⟨_, hnext⟩

/-- What every call of a machine keeps. -/
theorem Keeps.of_call {m : Machine σ} {P : σ → Prop}
    (h : ∀ {α : Type} (c : Call α) (s : σ), P s → P (m.call c s).2) :
    m.Keeps (fun _ => P) (fun _ => True) (fun _ => True) (fun _ => True) where
  mono _ _ _ _ := id
  fewer _ _ _ _ := trivial
  within _ _ _ := trivial
  vm _ _ c := fun s hs => ⟨h (.vm c) s hs, fun _ _ => trivial⟩
  apply _ epoch miner msg length _ _ :=
    fun s hs => ⟨h (.apply epoch miner msg length) s hs, fun _ _ => trivial⟩
  reward _ epoch miner penalty gasReward tickets :=
    fun s hs => ⟨h (.reward epoch miner penalty gasReward tickets) s hs, fun _ _ => trivial⟩
  cron _ epoch randomness := fun s hs => ⟨h (.cron epoch randomness) s hs, fun _ _ => trivial⟩

/-- What every call of the logged machine keeps holds in the end of every run. -/
theorem Ran.kept {m : Machine σ} {P : Logged σ → Prop} {start s : σ} {log : List (Application σ)}
    (h : ∀ {α : Type} (c : Call α) (t : Logged σ), P t → P (m.logged.call c t).2)
    (hstart : P ⟨start, []⟩) (hran : m.Ran start s log) : P ⟨s, log⟩ := by
  induction hran with
  | start => exact hstart
  | call _ c ih =>
    have hnext := h c _ ih
    rwa [(logs_call m c).eq] at hnext
  | drive _ k ih =>
    have hnext := ((Keeps.of_call h).call k (n := 0) (fun _ _ => trivial) trivial _ ih).1
    rwa [(logs_drive m k).eq] at hnext

/-- So does what every call of the machine keeps, whatever is in the log. -/
theorem Ran.kept_state {m : Machine σ} {P : σ → Prop} {start s : σ} {log : List (Application σ)}
    (h : ∀ {α : Type} (c : Call α) (t : σ), P t → P (m.call c t).2) (hstart : P start)
    (hran : m.Ran start s log) : P s := by
  refine hran.kept (P := fun t => P t.state) (fun c t ht => ?_) hstart
  rw [(logs_call m c).eq t.state t.log]
  exact h c t.state ht

end Conformance.Machine
