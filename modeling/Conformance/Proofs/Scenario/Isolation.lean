import Conformance.Proofs.Rpc.Agreement
import Conformance.Proofs.Trial.Runs
import Conformance.Runner

namespace Conformance

open Fixture (Oracle Mode Entry FileError)

namespace Trial
variable {σ α : Type} {P : Oracle → Prop}

/-- What the oracle keeps through everything it is shown, it keeps through a program. -/
theorem Program.run_oracle (hseen : ∀ o gas root, P o → P (o.observe gas root).2) (b : Binding σ)
    (p : Program α) {t : Trial σ} (h : P t.oracle) : P (p.run b t).2.oracle := by
  induction p generalizing t with
  | done r => exact h
  | step s next ih =>
    have hstep : P (s.run b t).2.oracle := by
      rw [(s.run_leaves b t).oracle]
      cases s.shown? b t with
      | none => exact h
      | some x => exact hseen _ _ _ h
    simp only [Program.run]
    rcases hs : s.run b t with ⟨e | x, u⟩ <;> rw [hs] at hstep
    · simp only
      split
      · exact hstep
      · exact ih _ hstep
    · exact ih _ hstep

/-- A program leaves a recording as one of the same test, for the same files. -/
theorem Program.run_recording (b : Binding σ) (p : Program α) {t : Trial σ} {test : String}
    {w : Fixture.Writer} (h : t.oracle = .recording { test } w) :
    ∃ entry, (p.run b t).2.oracle = .recording { test, entry } w := by
  refine p.run_oracle (P := fun o => ∃ entry, o = .recording { test, entry } w) ?_ b ⟨{}, h⟩
  rintro _ gas root ⟨entry, rfl⟩
  exact ⟨entry.add gas root, rfl⟩

/-- A trial that does not record ends without a look at the files. -/
theorem finish_unrecorded {t : Trial σ} (h : t.oracle.mode ≠ .record) (files : FileTree) :
    t.finish files = (.ok (), files) := by
  unfold finish
  split
  · rfl
  · cases horacle : t.oracle with
    | disabled => rfl
    | replaying r => rfl
    | recording r w =>
      rw [horacle] at h
      exact absurd rfl h

end Trial

/-- Recorded values are not read or written but in the mode for it. -/
theorem FixtureSource.mode_oracle (f : FixtureSource) (test : String) :
    (f.oracle test).mode = f.mode := by
  unfold oracle Oracle.ofMode
  cases f.mode <;> rfl

namespace Scenario
variable {σ : Type} (s : Scenario) (b : Binding σ) (vm : σ) {checks : Checks} {f : FixtureSource}
  {test : String}

theorem drive_skipped (h : checks.enables s.suite = false) (files : FileTree) :
    s.drive b vm checks f test files = (.ok .skipped, vm, files) := by
  unfold drive
  rw [h]
  rfl

/-- A program that is run fails, or leaves a trial to be ended; the files matter to its end only. -/
theorem drive_enabled (h : checks.enables s.suite = true) :
    (∃ e u, ∀ files, s.drive b vm checks f test files = (.error e, u, files)) ∨
      ∃ t : Trial σ, t = (s.program.run b { test, checks, vm, oracle := f.oracle test }).2 ∧
        ∀ files, s.drive b vm checks f test files =
          ((t.finish files).1.map (fun _ => .passed), t.vm, (t.finish files).2) := by
  simp only [drive, h, Bool.not_true, Bool.false_eq_true, ↓reduceIte]
  rcases s.program.run b { test, checks, vm, oracle := f.oracle test } with ⟨e | ⟨⟩, t⟩
  · exact .inl ⟨_, _, fun _ => rfl⟩
  · exact .inr ⟨t, rfl, fun _ => rfl⟩

theorem drive_ne_skipped (h : checks.enables s.suite = true) (files : FileTree) :
    (s.drive b vm checks f test files).1 ≠ .ok .skipped := by
  rcases drive_enabled s b vm h with ⟨e, u, hdrive⟩ | ⟨t, -, hdrive⟩
  · rw [hdrive]
    simp
  · rw [hdrive]
    rcases (t.finish files).1 with e | ⟨⟩ <;> simp [Except.map]

/-- Without a recording, the files are neither looked at nor changed. -/
theorem drive_unrecorded (hmode : f.mode ≠ .record) : ∃ r u, ∀ files,
    s.drive b vm checks f test files = (r, u, files) := by
  cases henabled : checks.enables s.suite with
  | false => exact ⟨_, _, s.drive_skipped b vm henabled⟩
  | true =>
    rcases drive_enabled s b vm henabled with ⟨e, u, hdrive⟩ | ⟨t, ht, hdrive⟩
    · exact ⟨_, _, hdrive⟩
    · have hunrecorded : t.oracle.mode ≠ .record := by
        rw [ht]
        refine s.program.run_oracle (P := fun o => o.mode ≠ .record) ?_ b
          (by rwa [FixtureSource.mode_oracle])
        intro o gas root ho
        cases o <;> exact ho
      refine ⟨.ok .passed, t.vm, fun files => ?_⟩
      rw [hdrive, Trial.finish_unrecorded hunrecorded]
      rfl

/-- A failure leaves the files alone, unless it is that of writing the recording. -/
theorem drive_error {files : FileTree} {e : Failure}
    (h : (s.drive b vm checks f test files).1 = .error e) :
    (s.drive b vm checks f test files).2.2 = files ∨
      f.mode = .record ∧ ∃ entry err,
        f.writer.write test entry files = (.error err, (s.drive b vm checks f test files).2.2) ∧
          e = .ofFile err := by
  by_cases hmode : f.mode = .record
  · cases henabled : checks.enables s.suite with
    | false =>
      rw [s.drive_skipped b vm henabled] at h
      cases h
    | true =>
      rcases drive_enabled s b vm henabled with ⟨e, u, hdrive⟩ | ⟨t, ht, hdrive⟩
      · exact .inl (by rw [hdrive])
      · have hrecording : f.oracle test = .recording { test } f.writer := by
          unfold FixtureSource.oracle Oracle.ofMode
          rw [hmode]
        obtain ⟨entry, horacle⟩ : ∃ entry, t.oracle = .recording { test, entry } f.writer := by
          rw [ht]
          exact s.program.run_recording b hrecording
        rw [hdrive] at h ⊢
        cases hfailed : t.failed with
        | true =>
          rw [Trial.finish_of_failed hfailed] at h
          cases h
        | false =>
          rw [Trial.finish_of_passed hfailed horacle] at h ⊢
          rcases hwrite : f.writer.write test entry files with ⟨err | ⟨⟩, written⟩
          · rw [hwrite] at h
            exact .inr ⟨hmode, entry, err, hwrite, (Except.error.inj h).symm⟩
          · rw [hwrite] at h
            cases h
  · obtain ⟨r, u, hdrive⟩ := s.drive_unrecorded b vm hmode
    exact .inl (by rw [hdrive])

variable (f test) in
/-- Behind a server, a scenario is driven on the machine that the server starts for it. -/
theorem runRemote_direct (client : Rpc.Client) (checks : Checks) : ∃ vm,
    ∀ around : Surroundings (Option Sandbox),
      s.runRemote client (.direct (Rpc.sandboxServer checks)) f test around =
        if checks.enables s.suite then
          let driven := s.drive (Rpc.Remote.binding client (.direct (Rpc.sandboxServer checks))) vm
            checks f test around.files
          (driven.1, { files := driven.2.2, peer := driven.2.1.session.peer })
        else (.ok .skipped, around) := by
  refine ⟨{ session := { peer := some {}, nextId := 1 + 1 + 1 + 1 + 1 + 1 + 1 } }, fun around => ?_⟩
  simp only [runRemote, Rpc.Client.checks_direct, Rpc.Remote.start_direct]
  cases checks.enables s.suite <;> rfl

end Scenario

namespace Target
variable {target : Target (Option Sandbox)} {checks : Checks} {f : FixtureSource}

/-- Somewhere to run scenarios that nobody else uses, with the checks that hold there. -/
inductive Own : Target (Option Sandbox) → Checks → Prop
  | inPlace : Own .inPlace {}
  | loopback : Own .loopback {}
  | remote (client : Rpc.Client) (checks : Checks) :
    Own (.remote client (.direct (Rpc.sandboxServer checks))) checks

namespace Own
variable (h : target.Own checks) (s : Scenario) (test : String)
include h

theorem run_skipped (hskip : checks.enables s.suite = false)
    (around : Surroundings (Option Sandbox)) :
    target.run s f test around = (.ok .skipped, around) := by
  cases h with
  | inPlace => cases hskip
  | loopback => cases hskip
  | remote client =>
    obtain ⟨vm, hrun⟩ := s.runRemote_direct f test client checks
    simp only [run, hrun, hskip, Bool.false_eq_true, ↓reduceIte]

/-- Wherever it is run, a scenario is driven on a machine that no other run has to do with. -/
theorem run_driven : ∃ (σ : Type) (b : Binding σ) (vm : σ), ∀ around,
    (target.run s f test around).1 = (s.drive b vm checks f test around.files).1 ∧
      (target.run s f test around).2.files = (s.drive b vm checks f test around.files).2.2 := by
  cases henabled : checks.enables s.suite with
  | false =>
    refine ⟨Sandbox, Sandbox.machine.binding, {}, fun around => ?_⟩
    rw [h.run_skipped s test henabled, s.drive_skipped _ _ henabled]
    exact ⟨rfl, rfl⟩
  | true =>
    cases h with
    | inPlace => exact ⟨_, Sandbox.machine.binding, {}, fun _ => ⟨rfl, rfl⟩⟩
    | loopback =>
      have hserver : Scenario.ownServer = Rpc.sandboxServer {} := rfl
      obtain ⟨vm, hrun⟩ := s.runRemote_direct f test (.ofEndpoint "http://127.0.0.1" 30000) {}
      refine ⟨_, Rpc.Remote.binding (.ofEndpoint "http://127.0.0.1" 30000)
        (.direct (Rpc.sandboxServer {})), vm, fun around => ?_⟩
      simp only [run, Scenario.runLoopback, hserver, hrun, henabled, ↓reduceIte, and_self]
    | remote client =>
      obtain ⟨vm, hrun⟩ := s.runRemote_direct f test client checks
      refine ⟨_, Rpc.Remote.binding client (.direct (Rpc.sandboxServer checks)), vm,
        fun around => ?_⟩
      simp only [run, hrun, henabled, ↓reduceIte, and_self]

/-- A scenario is skipped if the checks leave its suite out, and only then. -/
theorem skipped_iff (around : Surroundings (Option Sandbox)) :
    (target.run s f test around).1 = .ok .skipped ↔ checks.enables s.suite = false := by
  constructor
  · intro hskipped
    obtain ⟨σ, b, vm, hrun⟩ := h.run_driven (f := f) s test
    rw [(hrun around).1] at hskipped
    cases henabled : checks.enables s.suite with
    | false => rfl
    | true => exact absurd hskipped (s.drive_ne_skipped b vm henabled around.files)
  · intro hskip
    rw [h.run_skipped s test hskip]

/-- Unless it records, a run has one result whatever is around it. -/
theorem run_unrecorded (hmode : f.mode ≠ .record) : ∃ r, ∀ around,
    (target.run s f test around).1 = r ∧ (target.run s f test around).2.files = around.files := by
  obtain ⟨σ, b, vm, hrun⟩ := h.run_driven (f := f) s test
  obtain ⟨r, u, hdrive⟩ := s.drive_unrecorded b vm hmode
  refine ⟨r, fun around => ?_⟩
  rw [(hrun around).1, (hrun around).2, hdrive]
  exact ⟨rfl, rfl⟩

end Own

/-- The results of a run of scenarios are those of each of them by itself. -/
theorem runAll_unrecorded (h : target.Own checks) (hmode : f.mode ≠ .record)
    (alone : Scenario → Surroundings (Option Sandbox)) (scenarios : List Scenario)
    (around : Surroundings (Option Sandbox)) :
    (target.runAll f scenarios around).1 =
      scenarios.map (fun s => (s.name, (target.run s f s.testName (alone s)).1)) := by
  induction scenarios generalizing around with
  | nil => rfl
  | cons s rest ih =>
    obtain ⟨r, hrun⟩ := h.run_unrecorded s s.testName hmode
    simp only [runAll, List.map_cons, ih, (hrun around).1, (hrun (alone s)).1]

/-- A scenario that fails, one of a suite that is left out, and one that does nothing. -/
def broken : Scenario := { name := "broken", suite := "payments", program := .fail (.plain "no") }

def unlisted : Scenario := { name := "unlisted", suite := "blocks", program := pure () }

def idle : Scenario := { name := "idle", suite := "payments", program := pure () }

end Target
end Conformance
