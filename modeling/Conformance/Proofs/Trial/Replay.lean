import Conformance.Proofs.Fixture.Loading
import Conformance.Proofs.Rpc.Agreement
import Conformance.Proofs.Trial.Runs

namespace Conformance

namespace Trial
variable {σ : Type}

/-- The addresses that a step sends along are proper. -/
def Step.Proper : {α : Type} → Step α → Prop
  | _, .vm c => c.Proper
  | _, .balance a => a.Proper
  | _, .apply m _ => m.Proper
  | _, .applySigned m _ => m.message.Proper
  | _, .applyTipSet blocks _ => ∀ b ∈ blocks, b.Proper
  | _, _ => True

theorem Step.call?_proper {α : Type} {s : Step α} (h : s.Proper) {e : Setting}
    (hminer : e.context.miner.Proper) {k : (β : Type) × Binding.Call β} (hk : s.call? e = some k) :
    k.2.Proper := by
  cases s with
  | vm c => exact Option.some.inj hk ▸ h
  | newAccount amount => exact Option.some.inj hk ▸ trivial
  | balance a => exact Option.some.inj hk ▸ h
  | apply m expected => exact Option.some.inj hk ▸ ⟨hminer, h⟩
  | applySigned m expected => exact Option.some.inj hk ▸ ⟨hminer, h⟩
  | applyTipSet blocks randomness => exact Option.some.inj hk ▸ h
  | _ => cases hk

theorem Step.settle_miner {α : Type} (s : Step α) (e : Setting) :
    (s.settle e).context.miner = e.context.miner := by
  cases s with
  | advanceEpoch step =>
    simp only [Step.settle, ExecutionContext.advance?]
    cases Word.add? e.context.epoch step <;> rfl
  | _ => rfl

theorem shown_mapError {α : Type} (k : Binding.Call α) (x : Except Failure α)
    (f : Failure → Failure) : k.shown (x.mapError f) = k.shown x := by
  cases k <;> cases x <;> rfl

section Far
variable (c : Rpc.Client) (checks : Checks)

/-- From afar a run shows what it shows in place. -/
theorem shown_far {steps : List ((α : Type) × Step α)} (hsteps : ∀ s ∈ steps, s.2.Proper)
    {t : Trial Sandbox} {t' : Trial (Rpc.Remote (Option Sandbox))}
    (hsetting : t.setting = t'.setting) (hminer : t.context.miner.Proper)
    (hvm : Rpc.Mirrors t'.vm t.vm) :
    shown Sandbox.machine.binding steps t =
      shown (Rpc.Remote.binding c (.direct (Rpc.sandboxServer checks))) steps t' := by
  refine shown_of_lockstep
    (R := fun t t' => t.setting = t'.setting ∧ t.setting.context.miner.Proper ∧
      Rpc.Mirrors t'.vm t.vm)
    (fun s hs t t' h => ?_) ⟨hsetting, hminer, hvm⟩
  obtain ⟨hsetting, hminer, hvm⟩ := h
  have hleaves := s.2.run_leaves Sandbox.machine.binding t
  have hleaves' := s.2.run_leaves (Rpc.Remote.binding c (.direct (Rpc.sandboxServer checks))) t'
  have hsettle : (s.2.run Sandbox.machine.binding t).2.setting =
      (s.2.run (Rpc.Remote.binding c (.direct (Rpc.sandboxServer checks))) t').2.setting := by
    rw [hleaves.setting, hleaves'.setting, hsetting]
  refine ⟨?_, hsettle, ?_, ?_⟩
  · unfold Step.shown?
    rw [← hsetting]
    cases hcall : s.2.call? t.setting with
    | none => rfl
    | some k =>
      obtain ⟨r, hfar, _⟩ := hvm.call c checks (Step.call?_proper (hsteps s hs) hminer hcall)
      simp only [Option.bind_some, hfar, shown_mapError]
  · rw [hleaves.setting, Step.settle_miner]
    exact hminer
  · rw [hleaves.vm, hleaves'.vm, ← hsetting]
    cases hcall : s.2.call? t.setting with
    | none => exact hvm
    | some k =>
      obtain ⟨r, hfar, hmirrors⟩ := hvm.call c checks (Step.call?_proper (hsteps s hs) hminer hcall)
      simp only [Option.elim_some, hfar]
      exact hmirrors

end Far

/-- What a replay makes of an application that was recorded, by the name of the test. -/
def replayed (test : String) : Fixture.Observation :=
  if test.toList.any isPlain then ⟨.matched, .matched⟩ else ⟨.missing, .missing⟩

section Replay
variable {test : String} {xs : List (Int64 × Cid)}

/-- A store that has what a run shows, or nothing for want of a name to find it by. -/
theorem observeAll_of_load {store : Fixture.Store} (writer : Fixture.Writer)
    (h : store.get? test =
      if sanitize test = "" then none else some ⟨xs.map Prod.fst, xs.map Prod.snd⟩) :
    ((Fixture.Oracle.ofMode .replay store writer test).observeAll xs).1 =
      List.replicate xs.length (replayed test) := by
  unfold replayed
  by_cases hname : sanitize test = ""
  · rw [if_pos hname] at h
    rw [sanitize_eq_empty.mp hname]
    exact Fixture.Oracle.observeAll_replaying_none (r := { store, test }) h xs
  · rw [if_neg hname] at h
    have hplain : test.toList.any isPlain = true := by
      simpa using mt sanitize_eq_empty.mpr hname
    rw [hplain]
    exact Fixture.Oracle.observeAll_replaying_same h

end Replay

/-- A trial that has not begun. -/
def start (test : String) (checks : Checks) (context : ExecutionContext) (producer : Producer)
    (oracle : Fixture.Oracle) (vm : σ) : Trial σ :=
  { test, checks, vm, oracle, context, producer }

section Recording
variable (test : String) (checks : Checks) (context : ExecutionContext) (producer : Producer)
  (w : Fixture.Writer) (steps : List ((α : Type) × Step α))

/-- A run on a new machine in place that is recorded. -/
def record : List ((α : Type) × Except Failure α) × Trial Sandbox :=
  run Sandbox.machine.binding steps
    (start test checks context producer (.ofMode .record {} w test) {})

/-- What the run shows to its oracle. -/
def recorded : List (Int64 × Cid) :=
  shown Sandbox.machine.binding steps
    (start test checks context producer (.ofMode .record {} w test) {})

variable {test checks context producer w steps}

theorem record_oracle :
    (record test checks context producer w steps).2.oracle = .recording
      { test, entry := ⟨(recorded test checks context producer w steps).map Prod.fst,
                        (recorded test checks context producer w steps).map Prod.snd⟩ } w :=
  run_recording (b := Sandbox.machine.binding) (r := { test })
    (t := start test checks context producer (.ofMode .record {} w test) {}) rfl

/-- A finish that succeeds has written what the run showed. -/
theorem record_written {files : FileTree}
    (hmarks : ∀ s ∈ steps, s.2.marks = false)
    (hok : ∀ x ∈ (record test checks context producer w steps).1, x.2.isOk = true)
    (hfinish : ((record test checks context producer w steps).2.finish files).1 = .ok ()) :
    w.Written test ⟨(recorded test checks context producer w steps).map Prod.fst,
      (recorded test checks context producer w steps).map Prod.snd⟩ files
      ((record test checks context producer w steps).2.finish files).2 := by
  have hpassed : (record test checks context producer w steps).2.failed = false :=
    failed_of_ok hok hmarks
  rw [finish_of_passed hpassed record_oracle] at hfinish ⊢
  refine Fixture.Writer.write_ok ?_
  rcases hwrite : w.write test _ files with ⟨e | _, files'⟩
  · rw [hwrite] at hfinish
    cases hfinish
  · rfl

end Recording

/-- Replaying the steps of a recording that passed. -/
theorem replay_of_recording {test : String} {checks : Checks} {context : ExecutionContext}
    {producer : Producer} {w : Fixture.Writer} {steps : List ((α : Type) × Step α)}
    {files : FileTree} (htime : w.time.Proper) (hempty : files.EmptyBelow w.root.path)
    (hmarks : ∀ s ∈ steps, s.2.marks = false)
    (hok : ∀ x ∈ (record test checks context producer w steps).1, x.2.isOk = true)
    (hfinish : ((record test checks context producer w steps).2.finish files).1 = .ok ()) :
    ∃ store, Fixture.Store.load ((record test checks context producer w steps).2.finish files).2
        w.root = .ok store ∧ ∀ checks',
      observations Sandbox.machine.binding steps
        (start test checks' context producer (.ofMode .replay store w test) {}) =
          List.replicate (steps.countP (·.2.applies)) (replayed test) ∧
      ∀ (c : Rpc.Client) (served : Checks) (session : Rpc.Client.Session (Option Sandbox)),
        context.miner.Proper → (∀ s ∈ steps, s.2.Proper) →
        ∃ r, (Rpc.Remote.start c (.direct (Rpc.sandboxServer served)) (some (sanitize test))
            session).1 = .ok r ∧
          observations (Rpc.Remote.binding c (.direct (Rpc.sandboxServer served))) steps
            (start test checks' context producer (.ofMode .replay store w test) r) =
              List.replicate (steps.countP (·.2.applies)) (replayed test) := by
  obtain ⟨store, hload, hget⟩ := (record_written hmarks hok hfinish).load hempty htime
  have hlength : (recorded test checks context producer w steps).length =
      steps.countP (·.2.applies) := length_shown_of_ok hok
  have hseen := observeAll_of_load w hget
  rw [hlength] at hseen
  refine ⟨store, hload, fun checks' => ⟨?_, fun c served session hminer hsteps => ?_⟩⟩
  · have hall := observeAll_shown Sandbox.machine.binding steps
      (start test checks' context producer (.ofMode .replay store w test) {})
    have hsame : shown Sandbox.machine.binding steps
        (start test checks' context producer (.ofMode .replay store w test) {}) =
        recorded test checks context producer w steps := shown_eq rfl rfl
    rw [hsame] at hall
    exact (congrArg Prod.fst hall).symm.trans hseen
  · obtain ⟨r, hstart, hmirrors⟩ :=
      Rpc.start_mirrors c served (some (sanitize test)) session
    have hall := observeAll_shown (Rpc.Remote.binding c (.direct (Rpc.sandboxServer served))) steps
      (start test checks' context producer (.ofMode .replay store w test) r)
    have hsame : recorded test checks context producer w steps =
        shown (Rpc.Remote.binding c (.direct (Rpc.sandboxServer served))) steps
          (start test checks' context producer (.ofMode .replay store w test) r) :=
      shown_far c served hsteps rfl hminer hmirrors
    rw [← hsame] at hall
    exact ⟨r, hstart, (congrArg Prod.fst hall).symm.trans hseen⟩

/-- An account, a key and a payment. -/
def payment : List ((α : Type) × Step α) :=
  [⟨_, .vm (.createActor .account (.id 100) 10000 .emptyObject)⟩,
   ⟨_, .newAccount 7⟩,
   ⟨_, .apply { recipient := .bls (List.replicate 48 7), sender := .id 100, nonce := 0, value := 5,
                method := Message.send, params := [], gasFeeCap := 2, gasPremium := 3,
                gasLimit := 2000 } none⟩]

/-- Writes below a folder of its own. -/
def clerk : Fixture.Writer where
  root := { shown := "fixtures", path := ["fixtures"] }
  time := { seconds := 1700000000 }

/-- The payment as the test of a name, recorded. -/
def paid (test : String) : List ((α : Type) × Except Failure α) × Trial Sandbox :=
  record test {} { epoch := 1, miner := .id 1000 } {} clerk payment

theorem replay_of_recording_payment :
    (∃ store, Fixture.Store.load ((paid "T1").2.finish {}).2 clerk.root = .ok store ∧
      observations Sandbox.machine.binding payment (start "T1" {} { epoch := 1, miner := .id 1000 }
        {} (.ofMode .replay store clerk "T1") {}) = [⟨.matched, .matched⟩] ∧
      ∃ r, (Rpc.Remote.start (.ofEndpoint "http://127.0.0.1" 30000) (.direct (Rpc.sandboxServer {}))
          (some "T1") { peer := none }).1 = .ok r ∧
        observations (Rpc.Remote.binding (.ofEndpoint "http://127.0.0.1" 30000)
            (.direct (Rpc.sandboxServer {}))) payment
          (start "T1" {} { epoch := 1, miner := .id 1000 } {} (.ofMode .replay store clerk "T1") r) =
            [⟨.matched, .matched⟩]) ∧
    ∃ store, Fixture.Store.load ((paid "::").2.finish {}).2 clerk.root = .ok store ∧
      observations Sandbox.machine.binding payment (start "::" {} { epoch := 1, miner := .id 1000 }
        {} (.ofMode .replay store clerk "::") {}) = [⟨.missing, .missing⟩] := by
  have htime : clerk.time.Proper := by constructor <;> decide +kernel
  have hempty : FileTree.EmptyBelow {} clerk.root.path := by
    intro q hq _
    refine (FileTree.get?_of_ne _ ?_).trans (SortedMap.get?_empty q)
    rintro rfl
    exact absurd (List.prefix_nil.mp hq) (by decide)
  have hproper : ∀ s ∈ payment, s.2.Proper := by
    simp [payment, Step.Proper, Vm.Call.Proper, Message.Proper, Address.Proper]
  have hfinish : ∀ r : Except Failure Unit, r.isOk = true → r = .ok () := fun r h => by
    cases r with
    | error e => cases h
    | ok x => rfl
  obtain ⟨store, hload, hreplay⟩ := replay_of_recording htime hempty (by decide)
    (by decide +kernel) (hfinish _ (by decide +kernel : ((paid "T1").2.finish {}).1.isOk = true))
  obtain ⟨store', hload', hreplay'⟩ := replay_of_recording htime hempty (by decide)
    (by decide +kernel) (hfinish _ (by decide +kernel : ((paid "::").2.finish {}).1.isOk = true))
  obtain ⟨hnear, hfar⟩ := hreplay {}
  exact ⟨⟨store, hload, hnear, hfar _ _ _ trivial hproper⟩, store', hload', (hreplay' {}).1⟩

end Trial
end Conformance
