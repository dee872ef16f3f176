import Conformance.Proofs.Trial.Recording
import Conformance.Proofs.Trial.Transparency

namespace Conformance.Trial

variable {σ α β : Type}

/-- The failure that reports a deviation from what was recorded for a test. -/
def FixtureError (test : String) (e : Failure) : Prop :=
  ∃ what, (what = "gas used" ∨ what = "state root") ∧ ∃ n expected actual,
    e = .mismatch (test ++ " " ++ what ++ " (apply #" ++ Numeral.ofNat n ++ ")") expected actual

/-- A step ended in such a failure. -/
def Reported (test : String) (r : Except Failure α) : Prop :=
  ∃ e, r = .error e ∧ FixtureError test e

/-- An observation has a mismatch that is asked for. -/
def Deviates (checks : Checks) (o : Fixture.Observation) : Prop :=
  checks.gas = true ∧ o.gas.isMismatch = true ∨ checks.stateRoot = true ∧ o.root.isMismatch = true

/-- The machine answers every application of a run. -/
def Answered (b : Binding σ) : List ((α : Type) × Step α) → Trial σ → Prop
  | [], _ => True
  | ⟨_, s⟩ :: steps, t =>
    (s.applies = true → (s.shown? b t).isSome = true) ∧ Answered b steps (s.run b t).2

/-- A binding that fails no application, whatever it is and in whatever state. -/
structure Unfailing (b : Binding σ) : Prop where
  message : ∀ ctx m s, (b.message ctx m s).1.isOk = true
  signed : ∀ ctx m s, (b.signed ctx m s).1.isOk = true
  tipSet : ∀ blocks epoch randomness s, (b.tipSet blocks epoch randomness s).1.isOk = true

theorem not_reported_ok (test : String) (x : α) : ¬ Reported test (.ok x : Except Failure α) := by
  rintro ⟨e, h, _⟩
  cases h

theorem reported_error {test : String} {e : Failure} :
    Reported test (.error e : Except Failure α) ↔ FixtureError test e := by
  simp [Reported]

theorem reported_map {test : String} {r : Except Failure α} {f : α → β} :
    Reported test (r.map f) ↔ Reported test r := by
  cases r with
  | error e => exact reported_error.trans reported_error.symm
  | ok x => exact iff_of_false (not_reported_ok test (f x)) (not_reported_ok test x)

section Answers
variable {b : Binding σ} {s : Step α} {t : Trial σ}

theorem isSome_toOption {r : Except Failure α} (h : r.isOk = true) (f : α → β) :
    (r.toOption.map f).isSome = true := by
  cases r with
  | error e => cases h
  | ok x => rfl

theorem Unfailing.answered (h : Unfailing b) (steps : List ((α : Type) × Step α)) (t : Trial σ) :
    Answered b steps t := by
  induction steps generalizing t with
  | nil => trivial
  | cons s steps ih =>
    refine ⟨fun happlies => ?_, ih _⟩
    obtain ⟨α, s⟩ := s
    cases s with
    | apply m expected => exact isSome_toOption (h.message _ _ _) _
    | applySigned m expected => exact isSome_toOption (h.signed _ _ _) _
    | applyTipSet blocks randomness => exact isSome_toOption (h.tipSet _ _ _ _) _
    | _ => cases happlies

theorem Step.shown?_eq_none (h : s.applies = false) : s.shown? b t = none := by
  cases s with
  | apply m expected => cases h
  | applySigned m expected => cases h
  | applyTipSet blocks randomness => cases h
  | _ => rfl

end Answers

/-- What is shown to the oracle is reported just if it deviates. -/
theorem observe_reported (gas : Int64) (root : Cid) (t : Trial σ) :
    Reported t.test (observe gas root t).1 ↔ Deviates t.checks (t.oracle.observe gas root).1 := by
  unfold observe Deviates
  simp only [Fixture.Check.isMismatch_iff]
  split
  · rename_i a a' hgas hseen
    exact iff_of_true ⟨_, rfl, _, .inl rfl, _, _, _, rfl⟩ (.inl ⟨hgas, a, a', hseen⟩)
  · rename_i hgas
    split
    · rename_i c c' hroot hseen
      exact iff_of_true ⟨_, rfl, _, .inr rfl, _, _, _, rfl⟩ (.inr ⟨hroot, c, c', hseen⟩)
    · rename_i hroot
      refine iff_of_false (not_reported_ok _ _) ?_
      rintro (⟨hasked, a, a', hseen⟩ | ⟨hasked, c, c', hseen⟩)
      · exact hgas a a' hasked hseen
      · exact hroot c c' hasked hseen

/-- An exit code is no part of a fixture. -/
theorem not_reported_expectExitCode (r : MessageResult) (expected : ExitCode) (t : Trial σ) :
    ¬ Reported t.test (expectExitCode r expected t).1 := by
  unfold expectExitCode
  split
  · exact not_reported_ok _ _
  · rintro ⟨e, he, what, hwhat, n, text, text', rfl⟩
    simp only [deviate, Failure.mismatch, Except.error.injEq, Failure.mk.injEq,
      Cause.mismatch.injEq] at he
    have hname := congrArg String.toList he.1.1
    rcases hwhat with rfl | rfl <;> simp [String.toList_append] at hname

/-- What an application is reported for is what it showed. -/
theorem application_reported {b : Binding σ} {t : Trial σ} {k : ExecutionContext → Binding.Call α}
    {gas : α → Int64} {root : α → Cid} {x : Int64 × Cid}
    (hshown : ∀ c r, (k c).shown r = r.toOption.map (fun x => (gas x, root x)))
    (h : (k t.context).shown (b.call (k t.context) t.vm).1 = some x) :
    Reported t.test (application (fun c => b.call (k c)) gas root t).1 ↔
      Deviates t.checks (t.oracle.observe x.1 x.2).1 := by
  rw [hshown] at h
  rcases hcall : b.call (k t.context) t.vm with ⟨e | y, s⟩ <;> rw [hcall] at h
  · cases h
  · obtain rfl := Option.some.inj h
    rw [application_ok hcall, reported_map]
    exact observe_reported (gas y) (root y) { t with vm := s }

/-- An exit code that has to be there is looked at after that. -/
theorem applied_reported {op : Op (Trial σ) MessageResult} {t : Trial σ}
    (hsteady : Steady t (op t).2) (expected : Option ExitCode) :
    Reported t.test (applied op expected t).1 ↔ Reported t.test (op t).1 := by
  cases expected with
  | none => exact Iff.rfl
  | some code =>
    change Reported t.test (expecting op code t).1 ↔ _
    rcases hop : op t with ⟨e | r, u⟩
    · rw [expecting_error hop]
    · rw [hop] at hsteady
      rw [expecting_ok hop, reported_map, ← hsteady.2]
      exact iff_of_false (not_reported_expectExitCode r code u) (not_reported_ok _ r)

/-- A step that shows something is reported just if that deviates. -/
theorem Step.reported {b : Binding σ} {s : Step α} {t : Trial σ} {x : Int64 × Cid}
    (h : s.shown? b t = some x) :
    Reported t.test (s.run b t).1 ↔ Deviates t.checks (t.oracle.observe x.1 x.2).1 := by
  cases s with
  | apply m expected =>
    exact (applied_reported ((Transparent.application _ _ _).steady t) expected).trans
      (application_reported (k := (.message · m)) (fun _ _ => rfl) h)
  | applySigned m expected =>
    exact (applied_reported ((Transparent.application _ _ _).steady t) expected).trans
      (application_reported (k := (.signed · m)) (fun _ _ => rfl) h)
  | applyTipSet blocks randomness =>
    exact application_reported (k := fun c => .tipSet blocks c.epoch randomness) (fun _ _ => rfl) h
  | _ => cases h

/-- The steps of a run that apply messages, with what each gave. -/
def applications (b : Binding σ) (steps : List ((α : Type) × Step α)) (t : Trial σ) : List Taken :=
  (taken b steps t).filter (·.step.applies)

/-- One by one the applications of a run are reported by their observations. -/
theorem reported_of_answered {b : Binding σ} {steps : List ((α : Type) × Step α)} {t : Trial σ}
    (h : Answered b steps t) :
    List.Forall₂ (fun c o => Reported t.test c.result ↔ Deviates t.checks o)
      (applications b steps t) (observations b steps t) := by
  induction steps generalizing t with
  | nil => exact .nil
  | cons s steps ih =>
    obtain ⟨hfirst, hrest⟩ := h
    obtain ⟨hchecks, htest⟩ := (s.2.run_transparent b).steady t
    have hothers := ih hrest
    rw [hchecks, htest] at hothers
    cases happlies : s.2.applies with
    | true =>
      obtain ⟨x, hx⟩ := Option.isSome_iff_exists.mp (hfirst happlies)
      simp only [applications, taken, List.filter_cons, happlies, ↓reduceIte, observations, hx]
      exact .cons (Step.reported hx) hothers
    | false =>
      simp only [applications, taken, List.filter_cons, happlies, Bool.false_eq_true, ↓reduceIte,
        observations, Step.shown?_eq_none happlies]
      exact hothers

/-- For every store and test a replay checks each observation against what was recorded at its own
position, and once there is nothing recorded any more there is nothing later. In a run whose
applications the machine answers, an application is reported as deviating from the fixture just if
one of its checks is a mismatch and is asked for, whatever the applications before it came to. -/
theorem replay_by_position (store : Fixture.Store) (test : String) :
    let e := (store.get? test).getD {}
    (∀ xs : List (Int64 × Cid),
      let seen := ((Fixture.Oracle.replaying { store, test }).observeAll xs).1
      (∀ n x, xs[n]? = some x → ∃ o : Fixture.Observation, seen[n]? = some o ∧
        o.gas.At e.gas n x.1 ∧ o.root.At e.roots n x.2) ∧
      ∀ (n m : Nat) (o o' : Fixture.Observation), n ≤ m → seen[n]? = some o → seen[m]? = some o' →
        (o.gas = .missing → o'.gas = .missing) ∧ (o.root = .missing → o'.root = .missing)) ∧
    ∀ {σ : Type} (b : Binding σ) (steps : List ((α : Type) × Step α)) (t : Trial σ),
      t.oracle = .replaying { store, test } → Answered b steps t →
      (shown b steps t).length = (applications b steps t).length ∧
      ∀ (n : Nat) (c : Taken) (x : Int64 × Cid),
        (applications b steps t)[n]? = some c → (shown b steps t)[n]? = some x →
        ∃ o : Fixture.Observation, (observations b steps t)[n]? = some o ∧
          o.gas.At e.gas n x.1 ∧ o.root.At e.roots n x.2 ∧
          (Reported t.test c.result ↔ t.checks.gas = true ∧ o.gas.isMismatch = true ∨
            t.checks.stateRoot = true ∧ o.root.isMismatch = true) := by
  intro e
  refine ⟨fun xs => ⟨fun n x hx => Fixture.Oracle.observeAll_at store test hx,
    fun n m o o' hle => Fixture.Oracle.missing_of_missing store test xs hle⟩, ?_⟩
  intro σ b steps t horacle hanswered
  have hreported := reported_of_answered hanswered
  have hseen : ((Fixture.Oracle.replaying { store, test }).observeAll (shown b steps t)).1 =
      observations b steps t := by
    rw [← horacle, observeAll_shown]
  constructor
  · rw [hreported.length_eq, ← hseen, Fixture.Oracle.length_observeAll]
  · intro n c x hc hx
    obtain ⟨o, ho, hgas, hroot⟩ := Fixture.Oracle.observeAll_at store test hx
    rw [hseen] at ho
    obtain ⟨hn, rfl⟩ := List.getElem?_eq_some_iff.mp hc
    obtain ⟨hn', rfl⟩ := List.getElem?_eq_some_iff.mp ho
    exact ⟨_, ho, hgas, hroot, hreported.get hn hn'⟩

/-- Three payments of one account, the last with an exit code that it does not come to. -/
def payments : List ((α : Type) × Step α) :=
  let pay (nonce : UInt64) : Message :=
    { recipient := .bls (List.replicate 48 7), sender := .id 100, nonce, value := 5,
      method := Message.send, params := [], gasFeeCap := 2, gasPremium := 3, gasLimit := 2000 }
  [⟨_, .vm (.createActor .account (.id 100) 100000 .emptyObject)⟩, ⟨_, .apply (pay 0) none⟩,
   ⟨_, .advanceEpoch 1⟩, ⟨_, .apply (pay 1) (some .ok)⟩, ⟨_, .apply (pay 2) (some .outOfGas)⟩]

/-- A wrong gas, the right one, and then no more were recorded. -/
theorem replay_by_position_payments :
    let replayed : Fixture.Store := .ofEntries [("T1", { gas := [0, 295] })]
    let t : Trial Sandbox :=
      start "T1" {} { epoch := 1, miner := .id 1000 } {} (.ofMode .replay replayed clerk "T1") {}
    ∃ c c' c'', applications Sandbox.machine.binding payments t = [c, c', c''] ∧
      Reported "T1" c.result ∧ ¬ Reported "T1" c'.result ∧
      c''.result.isOk = false ∧ ¬ Reported "T1" c''.result := by
  intro replayed t
  let b := Sandbox.machine.binding
  have hanswered : Answered b payments t :=
    ⟨nofun, fun _ => (by decide +kernel), nofun, fun _ => (by decide +kernel),
      fun _ => (by decide +kernel), trivial⟩
  obtain ⟨hlength, hall⟩ := (replay_by_position replayed "T1").2 b payments t rfl hanswered
  have hrun : observations b payments t =
      [⟨.mismatch 0 1295, .missing⟩, ⟨.matched, .missing⟩, ⟨.missing, .missing⟩] ∧
      (shown b payments t).length = 3 ∧
      (applications b payments t).map (·.result.isOk) = [false, true, false] := by
    decide +kernel
  obtain ⟨hseen, hshown, hends⟩ := hrun
  obtain ⟨c, c', c'', happlied⟩ := List.length_eq_three.mp (hlength.symm.trans hshown)
  obtain ⟨x, x', x'', hx⟩ := List.length_eq_three.mp hshown
  rw [happlied, hx, hseen] at hall
  obtain ⟨o, ho, _, _, hfirst⟩ := hall 0 c x rfl rfl
  obtain ⟨o', ho', _, _, hsecond⟩ := hall 1 c' x' rfl rfl
  obtain ⟨o'', ho'', _, _, hthird⟩ := hall 2 c'' x'' rfl rfl
  cases ho
  cases ho'
  cases ho''
  rw [happlied] at hends
  simp only [List.map_cons, List.cons.injEq] at hends
  refine ⟨c, c', c'', happlied, hfirst.mpr (.inl ⟨rfl, rfl⟩), fun hreported => ?_, hends.2.2.1,
    fun hreported => ?_⟩
  · simpa [Fixture.Check.isMismatch] using hsecond.mp hreported
  · simpa [Fixture.Check.isMismatch] using hthird.mp hreported

end Conformance.Trial
