import Conformance.Proofs.Trial.Steps

namespace Conformance.Trial

variable {σ α β : Type}

/-- Whether a failure was returned. An overflow ends a step before it returns anything. -/
def returnsFailure : Except Failure α → Bool
  | .ok _ => false
  | .error e => !e.isOverflow

/-- An operation that marks the trial just if it returns a failure. -/
def Notes (op : Op (Trial σ) α) : Prop :=
  ∀ t, (op t).2.failed = (t.failed || returnsFailure (op t).1)

namespace Notes

theorem pure (x : α) : Notes (Pure.pure x : Op (Trial σ) α) := fun _ => (Bool.or_false _).symm

theorem bind {op : Op (Trial σ) α} {f : α → Op (Trial σ) β} (h : Notes op)
    (hf : ∀ x, Notes (f x)) : Notes (op >>= f) := by
  intro t
  have hfirst := h t
  rcases hop : op t with ⟨e | x, u⟩
  · rw [hop] at hfirst
    rw [Op.bind_error hop]
    exact hfirst
  · rw [hop] at hfirst
    have hunmarked : u.failed = t.failed := hfirst.trans (Bool.or_false _)
    rw [Op.bind_ok hop, hf x u, hunmarked]

/-- What does not touch the mark notes its failures once it is guarded. -/
theorem guarded {op : Op (Trial σ) α} (h : ∀ t, (op t).2.failed = t.failed) :
    Notes (Trial.guarded op) := by
  intro t
  have hkept := h t
  unfold Trial.guarded
  rcases hop : op t with ⟨e | x, u⟩
  · rw [hop] at hkept
    exact congrArg (· || !e.isOverflow) hkept
  · rw [hop] at hkept
    exact hkept.trans (Bool.or_false _).symm

/-- A deviation is noted where it is found. -/
theorem deviate (what expected actual : String) :
    Notes (Trial.deviate what expected actual : Op (Trial σ) α) :=
  fun _ => (Bool.or_true _).symm

theorem observe (gas : Int64) (root : Cid) : Notes (Trial.observe gas root : Op (Trial σ) Unit) := by
  intro t
  unfold Trial.observe
  simp only
  split
  · exact deviate _ _ _ _
  · split
    · exact deviate _ _ _ _
    · exact (Bool.or_false _).symm

theorem expectExitCode (r : MessageResult) (expected : ExitCode) :
    Notes (Trial.expectExitCode r expected : Op (Trial σ) Unit) := by
  intro t
  unfold Trial.expectExitCode
  split
  · exact (Bool.or_false _).symm
  · exact deviate _ _ _ t

theorem expectReturn (r : MessageResult) (expected : Bytes) :
    Notes (Trial.expectReturn r expected : Op (Trial σ) Unit) := by
  intro t
  unfold Trial.expectReturn
  split
  · exact (Bool.or_false _).symm
  · exact deviate _ _ _ t

theorem newAccount (b : Binding σ) (amount : TokenAmount) : Notes (Trial.newAccount b amount) := by
  have hnext : Notes (nextAccount : Op (Trial σ) Address) := fun _ => (Bool.or_false _).symm
  exact hnext.bind (fun key => (guarded (fun t => rfl)).bind (fun _ => .pure key))

theorem application (apply : ExecutionContext → Op σ α) (gas : α → Int64) (root : α → Cid) :
    Notes (Trial.application apply gas root) := by
  have hget : Notes (get : Op (Trial σ) (Trial σ)) := fun _ => (Bool.or_false _).symm
  exact hget.bind (fun t => (guarded (fun t => rfl)).bind
    (fun r => (observe (gas r) (root r)).bind (fun _ => .pure r)))

theorem applied {op : Op (Trial σ) MessageResult} (h : Notes op) (expected : Option ExitCode) :
    Notes (Trial.applied op expected) := by
  cases expected with
  | none => exact h
  | some code => exact h.bind (fun r => (expectExitCode r code).bind (fun _ => .pure r))

/-- An epoch fails to be reached by an overflow only. -/
theorem advanceEpoch (step : Int64) : Notes (Trial.advanceEpoch step : Op (Trial σ) Int64) := by
  intro t
  unfold Trial.advanceEpoch
  split <;> exact (Bool.or_false _).symm

end Notes

/-- Whether a step fails the trial whatever it gives. -/
def Step.marks : {α : Type} → Step α → Bool
  | _, .markFailed => true
  | _, _ => false

/-- Whether a step hands on what the machine answers and notes nothing. -/
def Step.silent : {α : Type} → Step α → Bool
  | _, .vm _ => true
  | _, .balance _ => true
  | _, _ => false

/-- Whether a step failed, by what it gave. -/
def Step.failed (s : Step α) (r : Except Failure α) : Bool := s.marks || returnsFailure r

/-- Whether a step that failed is noted. -/
def Step.noted (s : Step α) (r : Except Failure α) : Bool := !s.silent && s.failed r

theorem balance_failed (b : Binding σ) (a : Address) (t : Trial σ) :
    (Trial.balance b a t).2.failed = t.failed := by
  rw [balance_eq]

/-- A step marks the trial just if it is noted, and no step takes the mark away. -/
theorem Step.run_failed (b : Binding σ) (s : Step α) (t : Trial σ) :
    (s.run b t).2.failed = (t.failed || s.noted (s.run b t).1) := by
  have hview : ∀ {γ : Type} (f : Trial σ → γ), Notes (view f) := fun _ _ => (Bool.or_false _).symm
  have hproduce : ∀ {γ : Type} (f : Producer → γ × Producer), Notes (produce f : Op (Trial σ) γ) :=
    fun _ _ => (Bool.or_false _).symm
  cases s with
  | vm c => exact (Bool.or_false _).symm
  | balance a => exact (balance_failed b a t).trans (Bool.or_false _).symm
  | markFailed => exact (Bool.or_true _).symm
  | newAccount amount => exact Notes.newAccount b amount t
  | apply m expected => exact (Notes.application _ _ _).applied expected t
  | applySigned m expected => exact (Notes.application _ _ _).applied expected t
  | applyTipSet blocks randomness => exact Notes.application _ _ _ t
  | expectExitCode r expected => exact Notes.expectExitCode r expected t
  | expectReturn r expected => exact Notes.expectReturn r expected t
  | advanceEpoch step => exact Notes.advanceEpoch step t
  | transfer recipient sender options => exact hproduce _ t
  | build recipient sender method params options => exact hproduce _ t
  | defaults => exact hview _ t
  | resolve options => exact hview _ t
  | messages => exact hview _ t
  | context => exact hview _ t
  | test => exact hview _ t

/-- A step that gives something does not fail the trial unless it marks it. -/
theorem Step.failed_of_ok {b : Binding σ} {s : Step α} {t t' : Trial σ} {x : α}
    (h : s.run b t = (.ok x, t')) (hmarks : s.marks = false) : t'.failed = t.failed := by
  have hfailed := s.run_failed b t
  simpa [h, Step.noted, Step.failed, hmarks, returnsFailure] using hfailed

end Conformance.Trial
