import Conformance.Proofs.Fixture.Observing
import Conformance.Proofs.Machine.Kept
import Conformance.Trial.Program

namespace Conformance

/-- What an application shows of its result. Other calls show nothing. -/
def Binding.Call.shown : {α : Type} → Binding.Call α → Except Failure α → Option (Int64 × Cid)
  | _, .vm _, _ => none
  | _, .message _ _, r => r.toOption.map (fun r => (r.receipt.gasUsed, r.root))
  | _, .signed _ _, r => r.toOption.map (fun r => (r.receipt.gasUsed, r.root))
  | _, .tipSet _ _ _, r => r.toOption.map (fun r => (r.totalGasUsed, r.root))

namespace Trial
variable {σ α : Type}

/-- What a trial keeps for itself, apart from the machine, the oracle and how it has fared. -/
structure Setting where
  test : String
  context : ExecutionContext
  producer : Producer
  accounts : Nat

def setting (t : Trial σ) : Setting := ⟨t.test, t.context, t.producer, t.accounts⟩

/-- The call that a step makes of the machine. -/
def Step.call? : {α : Type} → Step α → Setting → Option ((β : Type) × Binding.Call β)
  | _, .vm c, _ => some ⟨_, .vm c⟩
  | _, .newAccount amount, e =>
    some ⟨_, .vm (.createActor .account (accountAddress e.test e.accounts) amount .emptyObject)⟩
  | _, .balance a, _ => some ⟨_, .vm (.actor a)⟩
  | _, .apply m _, e => some ⟨_, .message e.context m⟩
  | _, .applySigned m _, e => some ⟨_, .signed e.context m⟩
  | _, .applyTipSet blocks randomness, e => some ⟨_, .tipSet blocks e.context.epoch randomness⟩
  | _, _, _ => none

/-- The setting that a step leaves behind. -/
def Step.settle : {α : Type} → Step α → Setting → Setting
  | _, .newAccount _, e => { e with accounts := e.accounts + 1 }
  | _, .transfer recipient sender options, e =>
    { e with producer := (e.producer.transfer recipient sender options).2 }
  | _, .build recipient sender method params options, e =>
    { e with producer := (e.producer.build recipient sender method params options).2 }
  | _, .advanceEpoch step, e => { e with context := (e.context.advance? step).getD e.context }
  | _, _, e => e

/-- Whether a step applies messages, so that the oracle sees it if it succeeds. -/
def Step.applies : {α : Type} → Step α → Bool
  | _, .apply _ _ => true
  | _, .applySigned _ _ => true
  | _, .applyTipSet _ _ => true
  | _, _ => false

/-- What a step shows to the oracle. -/
def Step.shown? (b : Binding σ) (s : Step α) (t : Trial σ) : Option (Int64 × Cid) :=
  (s.call? t.setting).bind (fun k => k.2.shown (b.call k.2 t.vm).1)

/-- How a step that makes a call of the machine, or none, and shows something, or nothing, leaves
a trial. -/
structure Leaves (b : Binding σ) (call : Option ((β : Type) × Binding.Call β))
    (shown : Option (Int64 × Cid)) (e : Setting) (t t' : Trial σ) : Prop where
  setting : t'.setting = e
  vm : t'.vm = call.elim t.vm (fun k => (b.call k.2 t.vm).2)
  oracle : t'.oracle = shown.elim t.oracle (fun x => (t.oracle.observe x.1 x.2).2)

namespace Leaves
variable {b : Binding σ} {call : Option ((β : Type) × Binding.Call β)}
  {shown : Option (Int64 × Cid)} {e : Setting} {t t' t'' : Trial σ}

theorem refl (t : Trial σ) : Leaves b none none t.setting t t := ⟨rfl, rfl, rfl⟩

/-- What follows a step may fail the trial or be counted, but does no more. -/
theorem followed (h : Leaves b call shown e t t') (hend : Leaves b none none t'.setting t' t'') :
    Leaves b call shown e t t'' :=
  ⟨hend.setting.trans h.setting, hend.vm.trans h.vm, hend.oracle.trans h.oracle⟩

end Leaves

section Operations
variable {b : Binding σ} {t : Trial σ}

theorem guarded_leaves (op : Op (Trial σ) α) (t : Trial σ) :
    Leaves b none none (op t).2.setting (op t).2 (guarded op t).2 := by
  unfold guarded
  rcases op t with ⟨e | x, t'⟩ <;> exact ⟨rfl, rfl, rfl⟩

theorem observe_leaves (gas : Int64) (root : Cid) (t : Trial σ) :
    Leaves b none (some (gas, root)) t.setting t (observe gas root t).2 := by
  unfold observe
  simp only
  split
  · exact ⟨rfl, rfl, rfl⟩
  · split <;> exact ⟨rfl, rfl, rfl⟩

theorem expectExitCode_leaves (r : MessageResult) (expected : ExitCode) (t : Trial σ) :
    Leaves b none none t.setting t (expectExitCode r expected t).2 := by
  unfold expectExitCode
  split <;> exact ⟨rfl, rfl, rfl⟩

theorem expectReturn_leaves (r : MessageResult) (expected : Bytes) (t : Trial σ) :
    Leaves b none none t.setting t (expectReturn r expected t).2 := by
  unfold expectReturn
  split <;> exact ⟨rfl, rfl, rfl⟩

theorem application_error {apply : ExecutionContext → Op σ α} {gas : α → Int64} {root : α → Cid}
    {e : Failure} {s : σ} (h : apply t.context t.vm = (.error e, s)) :
    application apply gas root t =
      (.error e, { t with vm := s, failed := t.failed || !e.isOverflow }) := by
  have hcall : guarded (onVm (apply t.context)) t =
      (.error e, { t with vm := s, failed := t.failed || !e.isOverflow }) := by
    simp only [guarded, onVm, h]
  have hget : (get : Op (Trial σ) (Trial σ)) t = (.ok t, t) := rfl
  exact (Op.bind_ok hget).trans (Op.bind_error hcall)

theorem application_ok {apply : ExecutionContext → Op σ α} {gas : α → Int64} {root : α → Cid}
    {x : α} {s : σ} (h : apply t.context t.vm = (.ok x, s)) :
    application apply gas root t =
      ((observe (gas x) (root x) { t with vm := s }).1.map (fun _ => x),
        (observe (gas x) (root x) { t with vm := s }).2) := by
  have hget : (get : Op (Trial σ) (Trial σ)) t = (.ok t, t) := rfl
  have hcall : guarded (onVm (apply t.context)) t = (.ok x, { t with vm := s }) := by
    simp only [guarded, onVm, h]
  exact (Op.bind_ok hget).trans ((Op.bind_ok hcall).trans (Op.bind_map _ (fun _ => x) _))

theorem expecting_error {op : Op (Trial σ) MessageResult} {code : ExitCode} {e : Failure}
    {u : Trial σ} (h : op t = (.error e, u)) : expecting op code t = (.error e, u) :=
  Op.bind_error h

theorem expecting_ok {op : Op (Trial σ) MessageResult} {code : ExitCode} {r : MessageResult}
    {u : Trial σ} (h : op t = (.ok r, u)) :
    expecting op code t = ((expectExitCode r code u).1.map (fun _ => r),
      (expectExitCode r code u).2) :=
  (Op.bind_ok h).trans (Op.bind_map _ (fun _ => r) _)

/-- A new account is created after its number was taken. -/
theorem newAccount_eq (b : Binding σ) (amount : TokenAmount) (t : Trial σ) :
    let key := accountAddress t.test t.accounts
    let created := guarded (onVm (b.createActor .account key amount .emptyObject))
      { t with accounts := t.accounts + 1 }
    newAccount b amount t = (created.1.map (fun _ => key), created.2) := by
  intro key created
  have hnext : nextAccount t = (.ok key, { t with accounts := t.accounts + 1 }) := rfl
  exact (Op.bind_ok hnext).trans (Op.bind_map _ (fun _ => key) _)

/-- A balance is that of the actor which the machine finds. -/
theorem balance_eq (b : Binding σ) (a : Address) (t : Trial σ) :
    Trial.balance b a t =
      ((b.actor a t.vm).1.bind (fun actor =>
        actor.elim (.error (.ofMachine (.actorNotFound a))) (fun actor => .ok actor.balance)),
        { t with vm := (b.actor a t.vm).2 }) := by
  have hlook : onVm (b.actor a) t = ((b.actor a t.vm).1, { t with vm := (b.actor a t.vm).2 }) := rfl
  unfold Trial.balance
  rcases hactor : b.actor a t.vm with ⟨e | actor, s⟩ <;> rw [hactor] at hlook
  · exact Op.bind_error hlook
  · rw [Op.bind_ok hlook]
    cases actor <;> rfl

/-- An application makes its call, and the oracle sees a result. -/
theorem application_leaves {k : ExecutionContext → Binding.Call α} {gas : α → Int64}
    {root : α → Cid}
    (hshown : ∀ c r, (k c).shown r = r.toOption.map (fun x => (gas x, root x))) :
    Leaves b (some ⟨α, k t.context⟩) ((k t.context).shown (b.call (k t.context) t.vm).1) t.setting
      t (application (fun c => b.call (k c)) gas root t).2 := by
  rw [hshown]
  rcases hcall : b.call (k t.context) t.vm with ⟨e | x, s⟩
  · rw [application_error hcall]
    exact ⟨rfl, by simp [hcall], rfl⟩
  · rw [application_ok hcall]
    have hseen := observe_leaves (b := b) (gas x) (root x) { t with vm := s }
    exact ⟨hseen.setting, by rw [hseen.vm]; simp [hcall], hseen.oracle⟩

theorem expecting_leaves {call : Option ((β : Type) × Binding.Call β)}
    {shown : Option (Int64 × Cid)} {e : Setting} {op : Op (Trial σ) MessageResult}
    (h : Leaves b call shown e t (op t).2) (expected : Option ExitCode) :
    Leaves b call shown e t (applied op expected t).2 := by
  cases expected with
  | none => exact h
  | some code =>
    change Leaves b call shown e t (expecting op code t).2
    rcases hop : op t with ⟨err | r, u⟩
    · rw [hop] at h
      rw [expecting_error hop]
      exact h
    · rw [hop] at h
      rw [expecting_ok hop]
      exact h.followed (expectExitCode_leaves r code u)

theorem newAccount_leaves (amount : TokenAmount) :
    Leaves b (some ⟨_, .vm (.createActor .account (accountAddress t.test t.accounts) amount
      .emptyObject)⟩) none { t.setting with accounts := t.accounts + 1 } t
      (newAccount b amount t).2 := by
  have hcreated := guarded_leaves (b := b)
    (onVm (b.createActor .account (accountAddress t.test t.accounts) amount .emptyObject))
    { t with accounts := t.accounts + 1 }
  rw [newAccount_eq]
  exact ⟨hcreated.setting, hcreated.vm, hcreated.oracle⟩

theorem balance_leaves (a : Address) :
    Leaves b (some ⟨_, .vm (.actor a)⟩) none t.setting t (Trial.balance b a t).2 := by
  rw [balance_eq]
  exact ⟨rfl, rfl, rfl⟩

theorem advanceEpoch_leaves (step : Int64) :
    Leaves b none none
      { t.setting with context := (t.context.advance? step).getD t.context } t
      (advanceEpoch step t).2 := by
  unfold advanceEpoch
  cases hcontext : t.context.advance? step with
  | none => exact ⟨by simp [setting], rfl, rfl⟩
  | some context => exact ⟨by simp [setting], rfl, rfl⟩

end Operations

/-- Every step leaves a trial as its call, what it shows and how it settles say. -/
theorem Step.run_leaves (b : Binding σ) (s : Step α) (t : Trial σ) :
    Leaves b (s.call? t.setting) (s.shown? b t) (s.settle t.setting) t (s.run b t).2 := by
  cases s with
  | vm c => exact ⟨rfl, rfl, rfl⟩
  | newAccount amount => exact newAccount_leaves amount
  | balance a => exact balance_leaves a
  | apply m expected =>
    exact expecting_leaves (application_leaves (k := (.message · m)) (fun _ _ => rfl)) expected
  | applySigned m expected =>
    exact expecting_leaves (application_leaves (k := (.signed · m)) (fun _ _ => rfl)) expected
  | applyTipSet blocks randomness =>
    exact application_leaves (k := fun c => .tipSet blocks c.epoch randomness) (fun _ _ => rfl)
  | expectExitCode r expected => exact expectExitCode_leaves r expected t
  | expectReturn r expected => exact expectReturn_leaves r expected t
  | advanceEpoch step => exact advanceEpoch_leaves step
  | transfer recipient sender options => exact ⟨rfl, rfl, rfl⟩
  | build recipient sender method params options => exact ⟨rfl, rfl, rfl⟩
  | defaults => exact .refl t
  | resolve options => exact .refl t
  | messages => exact .refl t
  | context => exact .refl t
  | test => exact .refl t
  | markFailed => exact ⟨rfl, rfl, rfl⟩

section Success
variable {b : Binding σ} {t t' : Trial σ}

/-- An application that gives something has had its call succeed, so that there was something to
show. -/
theorem application_passed {k : ExecutionContext → Binding.Call α} {gas : α → Int64}
    {root : α → Cid} {x : α}
    (hshown : ∀ c r, (k c).shown r = r.toOption.map (fun x => (gas x, root x)))
    (h : application (fun c => b.call (k c)) gas root t = (.ok x, t')) :
    ((k t.context).shown (b.call (k t.context) t.vm).1).isSome = true := by
  rcases hcall : b.call (k t.context) t.vm with ⟨e | y, s⟩
  · rw [application_error hcall] at h
    cases (Prod.mk.inj h).1
  · rw [hshown]
    rfl

theorem applied_passed {op : Op (Trial σ) MessageResult} {expected : Option ExitCode}
    {x : MessageResult} (h : applied op expected t = (.ok x, t')) : ∃ y u, op t = (.ok y, u) := by
  cases expected with
  | none => exact ⟨x, t', h⟩
  | some code =>
    change expecting op code t = _ at h
    rcases hop : op t with ⟨e | r, u⟩
    · rw [expecting_error hop] at h
      cases (Prod.mk.inj h).1
    · exact ⟨r, u, rfl⟩

end Success

/-- A step that gives something has shown something just if it applies messages. -/
theorem Step.shown_of_ok {b : Binding σ} {s : Step α} {t t' : Trial σ} {x : α}
    (h : s.run b t = (.ok x, t')) : (s.shown? b t).isSome = s.applies := by
  cases s with
  | apply m expected =>
    obtain ⟨y, u, hop⟩ := applied_passed h
    exact application_passed (k := (.message · m)) (fun _ _ => rfl) hop
  | applySigned m expected =>
    obtain ⟨y, u, hop⟩ := applied_passed h
    exact application_passed (k := (.signed · m)) (fun _ _ => rfl) hop
  | applyTipSet blocks randomness =>
    exact application_passed (k := fun c => .tipSet blocks c.epoch randomness)
      (fun _ _ => rfl) h
  | _ => rfl

end Trial
end Conformance
