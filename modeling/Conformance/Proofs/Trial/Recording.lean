import Conformance.Proofs.Trial.Replay

namespace Conformance.Trial

variable {σ : Type}

/-- A step that was taken, with what it gave. -/
structure Taken where
  {α : Type}
  step : Step α
  result : Except Failure α

namespace Taken

def failed (c : Taken) : Bool := c.step.failed c.result

def noted (c : Taken) : Bool := c.step.noted c.result

theorem noted_iff {c : Taken} : c.noted = true ↔ c.failed = true ∧ c.step.silent = false := by
  simp [noted, failed, Step.noted, and_comm]

end Taken

/-- The steps of a run with what each gave. -/
def taken (b : Binding σ) : List ((α : Type) × Step α) → Trial σ → List Taken
  | [], _ => []
  | ⟨_, s⟩ :: steps, t => ⟨s, (s.run b t).1⟩ :: taken b steps (s.run b t).2

/-- What the steps gave is what the run gives. -/
theorem taken_results (b : Binding σ) (steps : List ((α : Type) × Step α)) (t : Trial σ) :
    (taken b steps t).map (fun c => ⟨c.α, c.result⟩) = (run b steps t).1 := by
  induction steps generalizing t with
  | nil => rfl
  | cons s steps ih => exact congrArg (_ :: ·) (ih (s.2.run b t).2)

/-- A run marks a trial just if one of its steps was noted. -/
theorem run_failed (b : Binding σ) (steps : List ((α : Type) × Step α)) (t : Trial σ) :
    (run b steps t).2.failed = (t.failed || (taken b steps t).any Taken.noted) := by
  induction steps generalizing t with
  | nil => exact (Bool.or_false _).symm
  | cons s steps ih =>
    have hfirst := s.2.run_failed b t
    calc (run b (s :: steps) t).2.failed
      _ = (run b steps (s.2.run b t).2).2.failed := rfl
      _ = ((s.2.run b t).2.failed || (taken b steps (s.2.run b t).2).any Taken.noted) := ih _
      _ = (t.failed || (s.2.noted (s.2.run b t).1 ||
            (taken b steps (s.2.run b t).2).any Taken.noted)) := by rw [hfirst, Bool.or_assoc]

/-- Ending a run of a trial that records and had not failed before. -/
theorem finish_of_recording (b : Binding σ) (steps : List ((α : Type) × Step α)) {t : Trial σ}
    {r : Fixture.Recorder} {w : Fixture.Writer} (horacle : t.oracle = .recording r w)
    (hpassing : t.failed = false) (files : FileTree) :
    ((∃ c ∈ taken b steps t, c.failed = true ∧ c.step.silent = false) →
      (run b steps t).2.finish files = (.ok (), files) ∧
      (run b steps t).2.drop files = files) ∧
    ((∀ c ∈ taken b steps t, c.failed = true → c.step.silent = true) →
      let written := w.write r.test ⟨r.entry.gas ++ (shown b steps t).map Prod.fst,
        r.entry.roots ++ (shown b steps t).map Prod.snd⟩ files
      (run b steps t).2.finish files = (written.1.mapError .ofFile, written.2) ∧
      (run b steps t).2.drop files = written.2) := by
  have hfailed := run_failed b steps t
  rw [hpassing, Bool.false_or] at hfailed
  constructor
  · rintro ⟨c, hc, hnoted⟩
    have hmarked : (run b steps t).2.failed = true :=
      hfailed.trans (List.any_eq_true.mpr ⟨c, hc, Taken.noted_iff.mpr hnoted⟩)
    have hfinish := finish_of_failed hmarked files
    exact ⟨hfinish, congrArg Prod.snd hfinish⟩
  · intro hsilent written
    have hpassed : (run b steps t).2.failed = false := by
      refine hfailed.trans (List.any_eq_false.mpr (fun c hc hnoted => ?_))
      obtain ⟨hfail, hnoisy⟩ := Taken.noted_iff.mp hnoted
      exact Bool.false_ne_true (hnoisy.symm.trans (hsilent c hc hfail))
    have hfinish := finish_of_passed hpassed (run_recording horacle) files
    exact ⟨hfinish, congrArg Prod.snd hfinish⟩

/-- An account, and the balance of an actor that is not there. -/
def oversight : List ((α : Type) × Step α) := [⟨_, .newAccount 7⟩, ⟨_, .balance (.id 5)⟩]

/-- The same with a message in between that ends otherwise than expected. -/
def deviation : List ((α : Type) × Step α) :=
  [⟨_, .newAccount 7⟩,
   ⟨_, .apply { recipient := .id 6, sender := .id 5, nonce := 0, value := 5, method := Message.send,
                params := [], gasFeeCap := 2, gasPremium := 3, gasLimit := 2000 } (some .ok)⟩,
   ⟨_, .balance (.id 5)⟩]

/-- A trial of a new machine in place that records. -/
def clerked : Trial Sandbox :=
  start "T1" {} { epoch := 1, miner := .id 1000 } {} (.ofMode .record {} clerk "T1") {}

theorem finish_of_recording_oversight :
    (taken Sandbox.machine.binding oversight clerked).map Taken.failed = [false, true] ∧
    (run Sandbox.machine.binding oversight clerked).2.drop {} = (clerk.write "T1" {} {}).2 ∧
    ((clerk.write "T1" {} {}).2.readFile (clerk.file .gas "T1").path).isSome = true ∧
    (taken Sandbox.machine.binding deviation clerked).map Taken.failed = [false, true, true] ∧
    (run Sandbox.machine.binding deviation clerked).2.finish {} = (.ok (), {}) := by
  have horacle : clerked.oracle = .recording { test := "T1" } clerk := rfl
  have hsilent := (finish_of_recording Sandbox.machine.binding oversight horacle rfl {}).2
    (by decide +kernel)
  have hnoted := (finish_of_recording Sandbox.machine.binding deviation horacle rfl {}).1
    (by decide +kernel)
  exact ⟨by decide +kernel, hsilent.2, by decide +kernel, by decide +kernel, hnoted.1⟩

end Conformance.Trial
