import Conformance.Proofs.Trial.Noted

namespace Conformance.Trial

variable {σ τ : Type}

section Run
variable (b : Binding σ)

/-- Takes steps one after the other, whatever becomes of each. -/
def run : List ((α : Type) × Step α) → Trial σ → List ((α : Type) × Except Failure α) × Trial σ
  | [], t => ([], t)
  | ⟨α, s⟩ :: steps, t =>
    let (x, t) := s.run b t
    let (xs, t) := run steps t
    (⟨α, x⟩ :: xs, t)

/-- What the applications of a run show to the oracle, in order. -/
def shown : List ((α : Type) × Step α) → Trial σ → List (Int64 × Cid)
  | [], _ => []
  | ⟨_, s⟩ :: steps, t => (s.shown? b t).toList ++ shown steps (s.run b t).2

/-- What the oracle makes of the applications of a run, in order. -/
def observations : List ((α : Type) × Step α) → Trial σ → List Fixture.Observation
  | [], _ => []
  | ⟨_, s⟩ :: steps, t =>
    ((s.shown? b t).map (fun x => (t.oracle.observe x.1 x.2).1)).toList ++
      observations steps (s.run b t).2

end Run

variable {b : Binding σ} {b' : Binding τ} {steps : List ((α : Type) × Step α)}

/-- The oracle is shown the applications of a run and nothing else. -/
theorem observeAll_shown (b : Binding σ) (steps : List ((α : Type) × Step α)) (t : Trial σ) :
    t.oracle.observeAll (shown b steps t) =
      (observations b steps t, (run b steps t).2.oracle) := by
  induction steps generalizing t with
  | nil => rfl
  | cons s steps ih =>
    have horacle := (s.2.run_leaves b t).oracle
    have hrest := ih (s.2.run b t).2
    simp only [shown, observations, run]
    cases hshown : s.2.shown? b t with
    | none =>
      simp only [hshown, Option.elim_none] at horacle
      rw [horacle] at hrest
      exact hrest
    | some x =>
      simp only [hshown, Option.elim_some] at horacle
      rw [horacle] at hrest
      simp only [Option.toList_some, List.singleton_append, Option.map_some,
        Fixture.Oracle.observeAll, hrest]
      rfl

/-- A run leaves a recording with all that it showed. -/
theorem run_recording {b : Binding σ} {steps : List ((α : Type) × Step α)} {t : Trial σ}
    {r : Fixture.Recorder} {w : Fixture.Writer} (h : t.oracle = .recording r w) :
    (run b steps t).2.oracle = .recording
      { r with entry := ⟨r.entry.gas ++ (shown b steps t).map Prod.fst,
                         r.entry.roots ++ (shown b steps t).map Prod.snd⟩ } w := by
  have hall := congrArg Prod.snd (observeAll_shown b steps t)
  rw [h, Fixture.Oracle.observeAll_recording] at hall
  exact hall.symm

/-- Runs that go on alike show the same. -/
theorem shown_of_lockstep {R : Trial σ → Trial τ → Prop}
    (hstep : ∀ s ∈ steps, ∀ t t', R t t' → s.2.shown? b t = s.2.shown? b' t' ∧
      R (s.2.run b t).2 (s.2.run b' t').2)
    {t : Trial σ} {t' : Trial τ} (h : R t t') : shown b steps t = shown b' steps t' := by
  induction steps generalizing t t' with
  | nil => rfl
  | cons s steps ih =>
    obtain ⟨hshown, hnext⟩ := hstep s (by simp) t t' h
    have hrest := ih (fun s hs => hstep s (List.mem_cons_of_mem _ hs)) hnext
    simp only [shown, hshown, hrest]

section Alike
variable {t t' : Trial σ} (hsetting : t.setting = t'.setting) (hvm : t.vm = t'.vm)
include hsetting hvm

/-- A step takes trials that differ in their checks and oracles alone to such trials. -/
theorem Step.run_alike {α : Type} (s : Step α) :
    (s.run b t).2.setting = (s.run b t').2.setting ∧ (s.run b t).2.vm = (s.run b t').2.vm := by
  have hleaves := s.run_leaves b t
  have hleaves' := s.run_leaves b t'
  constructor
  · rw [hleaves.setting, hleaves'.setting, hsetting]
  · rw [hleaves.vm, hleaves'.vm, hsetting, hvm]

theorem run_alike (steps : List ((α : Type) × Step α)) :
    (run b steps t).2.setting = (run b steps t').2.setting ∧
      (run b steps t).2.vm = (run b steps t').2.vm := by
  induction steps generalizing t t' with
  | nil => exact ⟨hsetting, hvm⟩
  | cons s steps ih =>
    obtain ⟨hsetting, hvm⟩ := Step.run_alike (b := b) hsetting hvm s.2
    exact ih hsetting hvm

/-- What a run shows does not depend on the checks or the oracle. -/
theorem shown_eq : shown b steps t = shown b steps t' := by
  refine shown_of_lockstep (R := fun t t' => t.setting = t'.setting ∧ t.vm = t'.vm)
    (fun s _ t t' h => ?_) ⟨hsetting, hvm⟩
  obtain ⟨hsetting, hvm⟩ := h
  exact ⟨by simp only [Step.shown?, hsetting, hvm], Step.run_alike hsetting hvm s.2⟩

end Alike

section Passing

/-- The first step of a run of steps that succeed, and the run of the others. -/
theorem cons_of_ok {s : (α : Type) × Step α} {t : Trial σ}
    (hok : ∀ x ∈ (run b (s :: steps) t).1, x.2.isOk = true) :
    ∃ x u, s.2.run b t = (.ok x, u) ∧ ∀ x ∈ (run b steps u).1, x.2.isOk = true := by
  rcases hrun : s.2.run b t with ⟨e | x, u⟩
  · have hfirst := hok ⟨s.1, .error e⟩ (by simp [run, hrun])
    cases hfirst
  · exact ⟨x, u, rfl, fun y hy => hok y (by simp [run, hrun, hy])⟩

variable {t : Trial σ} (hok : ∀ x ∈ (run b steps t).1, x.2.isOk = true)
include hok

/-- A run in which every step succeeds does not fail the trial, unless a step marks it. -/
theorem failed_of_ok (hmarks : ∀ s ∈ steps, s.2.marks = false) :
    (run b steps t).2.failed = t.failed := by
  induction steps generalizing t with
  | nil => rfl
  | cons s steps ih =>
    obtain ⟨x, u, hrun, hrest⟩ := cons_of_ok hok
    have hfirst := Step.failed_of_ok hrun (hmarks s (by simp))
    simp only [run, hrun]
    exact (ih hrest (fun s hs => hmarks s (List.mem_cons_of_mem _ hs))).trans hfirst

/-- A run in which every step succeeds shows every application. -/
theorem length_shown_of_ok : (shown b steps t).length = steps.countP (·.2.applies) := by
  induction steps generalizing t with
  | nil => rfl
  | cons s steps ih =>
    obtain ⟨x, u, hrun, hrest⟩ := cons_of_ok hok
    have hfirst := Step.shown_of_ok hrun
    simp only [shown, hrun, List.length_append, ih hrest, List.countP_cons]
    cases hshown : s.2.shown? b t with
    | none => simp [← hfirst, hshown]
    | some y => simp [← hfirst, hshown, Nat.add_comm]

end Passing

section Ending
variable {t : Trial σ}

theorem finish_of_failed (h : t.failed = true) (files : FileTree) :
    t.finish files = (.ok (), files) := by
  rw [finish, if_pos h]

theorem finish_of_passed {r : Fixture.Recorder} {w : Fixture.Writer}
    (h : t.failed = false) (horacle : t.oracle = .recording r w) (files : FileTree) :
    t.finish files = ((w.write r.test r.entry files).1.mapError .ofFile,
      (w.write r.test r.entry files).2) := by
  rw [finish, if_neg (by simp [h]), horacle]
  rfl

end Ending
end Conformance.Trial
