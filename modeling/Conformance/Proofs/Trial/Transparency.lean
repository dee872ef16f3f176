import Mathlib.Data.List.Forall2
import Conformance.Proofs.Trial.Runs

namespace Conformance.Trial

variable {σ α : Type}

/-- What is compared in a trial, as it is reported, and whether it is. -/
def channels (c : Checks) : List (String × Bool) :=
  [("gas used", c.gas), ("state root", c.stateRoot), ("exit code", c.exitCode),
    ("return value", c.returnValue)]

/-- A failure that a comparison reports, and one that is made. -/
def Deviation (checks : Checks) (test : String) (e : Failure) : Prop :=
  ∃ what, (what, true) ∈ channels checks ∧ ∃ n expected actual,
    e = .mismatch (test ++ " " ++ what ++ " (apply #" ++ Numeral.ofNat n ++ ")") expected actual

/-- Nothing is compared. -/
def unchecked : Checks :=
  { gas := false, exitCode := false, returnValue := false, stateRoot := false }

/-- A trial of a setting that compares nothing. -/
def plain (e : Setting) (vm : σ) : Trial σ where
  test := e.test
  checks := unchecked
  vm
  oracle := .disabled
  context := e.context
  producer := e.producer
  accounts := e.accounts

/-- A result that is the one without comparisons, or a deviation in the place of a success. -/
def Strays (t : Trial σ) (r uncompared : Except Failure α) : Prop :=
  r = uncompared ∨
    (∃ x, uncompared = .ok x) ∧ ∃ e, r = .error e ∧ Deviation t.checks t.test e

/-- What deviations are reported by stays the same. -/
def Steady (t t' : Trial σ) : Prop := t'.checks = t.checks ∧ t'.test = t.test

/-- A step that compares: it succeeds or deviates. -/
structure Compares (op : Op (Trial σ) Unit) : Prop where
  steady : ∀ t, Steady t (op t).2
  strays : ∀ t, Strays t (op t).1 (.ok ())

/-- A step that gives what it gives without comparisons, or deviates. -/
structure Transparent (op : Op (Trial σ) α) : Prop where
  steady : ∀ t, Steady t (op t).2
  strays : ∀ t, Strays t (op t).1 (op (plain t.setting t.vm)).1

theorem Strays.of_steady {t t' : Trial σ} {r uncompared : Except Failure α}
    (h : Strays t' r uncompared) (hsteady : Steady t t') : Strays t r uncompared := by
  obtain ⟨hchecks, htest⟩ := hsteady
  rwa [Strays, hchecks, htest] at h

theorem Steady.trans {t t' t'' : Trial σ} (h : Steady t t') (h' : Steady t' t'') : Steady t t'' :=
  ⟨h'.1.trans h.1, h'.2.trans h.2⟩

theorem not_deviation_unchecked (test : String) (e : Failure) : ¬ Deviation unchecked test e := by
  rintro ⟨what, hwhat, _⟩
  simp [channels, unchecked] at hwhat

theorem strays_deviate {t : Trial σ} {what expected actual : String}
    (hwhat : (what, true) ∈ channels t.checks) :
    Strays t ((deviate what expected actual : Op (Trial σ) Unit) t).1 (.ok ()) :=
  .inr ⟨⟨(), rfl⟩, _, rfl, what, hwhat, t.applies, expected, actual, rfl⟩

namespace Compares

theorem observe (gas : Int64) (root : Cid) :
    Compares (Trial.observe gas root : Op (Trial σ) Unit) := by
  constructor <;> intro t <;> unfold Trial.observe <;> simp only
  case steady =>
    split
    · exact ⟨rfl, rfl⟩
    · split <;> exact ⟨rfl, rfl⟩
  case strays =>
    have hsteady : Steady t
        { t with oracle := (t.oracle.observe gas root).2, applies := t.applies + 1 } := ⟨rfl, rfl⟩
    split
    · rename_i hgas _
      exact (strays_deviate (by simp [channels, hgas])).of_steady hsteady
    · split
      · rename_i hroot _
        exact (strays_deviate (by simp [channels, hroot])).of_steady hsteady
      · exact .inl rfl

/-- A comparison that is made if it is asked for. -/
theorem of_asked {same : Prop} [Decidable same] {what expected actual : String}
    (asked : Checks → Bool) (hwhat : ∀ c, asked c = true → (what, true) ∈ channels c) :
    Compares (fun t : Trial σ =>
      if same ∨ ¬ asked t.checks then ((.ok (), t) : Except Failure Unit × Trial σ)
      else deviate what expected actual t) := by
  constructor <;> intro t <;> split
  case strays.isFalse hdiffers =>
    simp only [not_or, not_not] at hdiffers
    exact strays_deviate (hwhat _ hdiffers.2)
  case strays.isTrue => exact .inl rfl
  all_goals exact ⟨rfl, rfl⟩

theorem expectExitCode (r : MessageResult) (expected : ExitCode) :
    Compares (Trial.expectExitCode r expected : Op (Trial σ) Unit) :=
  of_asked Checks.exitCode (fun _ h => by simp [channels, h])

theorem expectReturn (r : MessageResult) (expected : Bytes) :
    Compares (Trial.expectReturn r expected : Op (Trial σ) Unit) :=
  of_asked Checks.returnValue (fun _ h => by simp [channels, h])

/-- Without checks nothing deviates. -/
theorem ok_of_unchecked {op : Op (Trial σ) Unit} (h : Compares op) {t : Trial σ}
    (ht : t.checks = unchecked) : (op t).1 = .ok () := by
  rcases h.strays t with hok | ⟨_, e, _, hdeviation⟩
  · exact hok
  · exact absurd (ht ▸ hdeviation) (not_deviation_unchecked _ e)

theorem transparent {op : Op (Trial σ) Unit} (h : Compares op) : Transparent op where
  steady := h.steady
  strays t := by
    rw [h.ok_of_unchecked (t := plain t.setting t.vm) rfl]
    exact h.strays t

end Compares

/-- A guarded call of the machine gives what the machine answers. -/
theorem guarded_onVm (op : Op σ α) (t : Trial σ) :
    ∃ failed, guarded (onVm op) t = ((op t.vm).1, { t with vm := (op t.vm).2, failed }) := by
  unfold guarded onVm
  rcases op t.vm with ⟨e | x, s⟩
  · exact ⟨t.failed || !e.isOverflow, rfl⟩
  · exact ⟨t.failed, rfl⟩

namespace Transparent

/-- A step that sees nothing of what is compared. -/
theorem of_eq {op : Op (Trial σ) α} (hsteady : ∀ t, Steady t (op t).2)
    (h : ∀ t, (op t).1 = (op (plain t.setting t.vm)).1) : Transparent op :=
  ⟨hsteady, fun t => .inl (h t)⟩

/-- A comparison may follow a step, and the step's value is given after it. -/
theorem compared {op : Op (Trial σ) α} (h : Transparent op) {f : α → Op (Trial σ) Unit}
    (hf : ∀ x, Compares (f x)) : Transparent (op >>= fun x => f x >>= fun _ => pure x) := by
  have hrest : ∀ x u, (f x >>= fun _ => pure x) u = ((f x u).1.map (fun _ => x), (f x u).2) :=
    fun x u => Op.bind_map (f x) (fun _ => x) u
  -- Without checks the comparison that follows succeeds.
  have hplain : ∀ (t : Trial σ) x u, op (plain t.setting t.vm) = (.ok x, u) →
      ((op >>= fun x => f x >>= fun _ => pure x) (plain t.setting t.vm)).1 = .ok x := by
    intro t x u hop
    have hchecks := (h.steady (plain t.setting t.vm)).1
    rw [hop] at hchecks
    rw [Op.bind_ok hop, hrest, (hf x).ok_of_unchecked hchecks]
    rfl
  constructor <;> intro t <;> have hsteady := h.steady t
  case steady =>
    rcases hop : op t with ⟨e | x, u⟩ <;> rw [hop] at hsteady
    · rw [Op.bind_error hop]
      exact hsteady
    · rw [Op.bind_ok hop, hrest]
      exact hsteady.trans ((hf x).steady u)
  case strays =>
    have hstrays := h.strays t
    rcases hop : op t with ⟨e | x, u⟩ <;> rw [hop] at hsteady hstrays <;>
      rcases hp : op (plain t.setting t.vm) with ⟨e' | y, v⟩ <;> rw [hp] at hstrays
    · rw [Op.bind_error hop, Op.bind_error hp]
      exact hstrays
    · rw [Op.bind_error hop, hplain t y v hp]
      exact hstrays
    · rcases hstrays with heq | ⟨⟨_, hok⟩, _⟩
      · cases heq
      · cases hok
    · rcases hstrays with heq | ⟨_, e, he, _⟩
      · obtain rfl := Except.ok.inj heq
        rw [Op.bind_ok hop, hrest, hplain t x v hp]
        refine Strays.of_steady ?_ hsteady
        rcases (hf x).strays u with hok | ⟨_, e, he, hdeviation⟩
        · rw [hok]
          exact .inl rfl
        · rw [he]
          exact .inr ⟨⟨x, rfl⟩, e, rfl, hdeviation⟩
      · cases he

/-- A step that gives what the machine answers in the setting of the trial. -/
theorem of_answer {op : Op (Trial σ) α} (answer : Setting → σ → Except Failure α × σ)
    (h : ∀ t, ∃ accounts failed, op t = ((answer t.setting t.vm).1,
      { t with vm := (answer t.setting t.vm).2, accounts, failed })) : Transparent op := by
  refine of_eq (fun t => ?_) (fun t => ?_) <;> obtain ⟨accounts, failed, ht⟩ := h t <;> rw [ht]
  · exact ⟨rfl, rfl⟩
  · obtain ⟨accounts', failed', hplain⟩ := h (plain t.setting t.vm)
    rw [hplain]
    rfl

theorem called (op : ExecutionContext → Op σ α) :
    Transparent ((get : Op (Trial σ) (Trial σ)) >>= fun t => guarded (onVm (op t.context))) := by
  refine of_answer (fun e => op e.context) (fun t => ?_)
  obtain ⟨failed, h⟩ := guarded_onVm (op t.context) t
  exact ⟨t.accounts, failed, h⟩

theorem application (op : ExecutionContext → Op σ α) (gas : α → Int64) (root : α → Cid) :
    Transparent (Trial.application op gas root) := by
  have hcompared := (called op).compared (fun x => Compares.observe (gas x) (root x))
  rwa [bind_assoc] at hcompared

theorem applied {op : Op (Trial σ) MessageResult} (h : Transparent op)
    (expected : Option ExitCode) : Transparent (Trial.applied op expected) := by
  cases expected with
  | none => exact h
  | some code => exact h.compared (fun r => .expectExitCode r code)

theorem newAccount (b : Binding σ) (amount : TokenAmount) :
    Transparent (Trial.newAccount b amount) := by
  let create (e : Setting) : Op σ (Actor × Address) :=
    b.createActor .account (accountAddress e.test e.accounts) amount .emptyObject
  refine of_answer (fun e s => ((create e s).1.map (fun _ => accountAddress e.test e.accounts),
    (create e s).2)) (fun t => ?_)
  obtain ⟨failed, h⟩ := guarded_onVm (create t.setting) { t with accounts := t.accounts + 1 }
  exact ⟨t.accounts + 1, failed, (newAccount_eq b amount t).trans
    (congrArg (fun r => (r.1.map (fun _ => accountAddress t.test t.accounts), r.2)) h)⟩

theorem balance (b : Binding σ) (a : Address) : Transparent (Trial.balance b a) :=
  of_answer (fun _ s => ((b.actor a s).1.bind (fun actor =>
      actor.elim (.error (.ofMachine (.actorNotFound a))) (fun actor => .ok actor.balance)),
      (b.actor a s).2))
    (fun t => ⟨t.accounts, t.failed, balance_eq b a t⟩)

theorem advanceEpoch (step : Int64) :
    Transparent (Trial.advanceEpoch step : Op (Trial σ) Int64) := by
  refine of_eq (fun t => ?_) (fun t => ?_) <;> unfold Trial.advanceEpoch
  · split <;> exact ⟨rfl, rfl⟩
  · cases hcontext : t.context.advance? step <;> simp [plain, setting, hcontext]

end Transparent

/-- No step looks at what was compared before. -/
theorem Step.run_transparent (b : Binding σ) (s : Step α) : Transparent (s.run b) := by
  cases s with
  | newAccount amount => exact .newAccount b amount
  | balance a => exact .balance b a
  | apply m expected => exact (Transparent.application _ _ _).applied expected
  | applySigned m expected => exact (Transparent.application _ _ _).applied expected
  | applyTipSet blocks randomness =>
    exact .application (fun c => b.tipSet blocks c.epoch randomness) _ _
  | expectExitCode r expected => exact (Compares.expectExitCode r expected).transparent
  | expectReturn r expected => exact (Compares.expectReturn r expected).transparent
  | advanceEpoch step => exact .advanceEpoch step
  | _ => exact .of_eq (fun _ => ⟨rfl, rfl⟩) (fun _ => rfl)

/-- How one step ended in two runs: with the same result, or in one of them or in both with a
deviation, which a check of that run asked for, in the place of a success. -/
inductive Concur (test : String) (checks checks' : Checks) :
    (α : Type) × Except Failure α → (α : Type) × Except Failure α → Prop
  | same (r : (α : Type) × Except Failure α) : Concur test checks checks' r r
  | first {α : Type} {e : Failure} (x : α) (h : Deviation checks test e) :
    Concur test checks checks' ⟨α, .error e⟩ ⟨α, .ok x⟩
  | second {α : Type} {e : Failure} (x : α) (h : Deviation checks' test e) :
    Concur test checks checks' ⟨α, .ok x⟩ ⟨α, .error e⟩
  | both {α : Type} {e e' : Failure} (h : Deviation checks test e) (h' : Deviation checks' test e') :
    Concur test checks checks' ⟨α, .error e⟩ ⟨α, .error e'⟩

theorem concur_of_strays {t t' : Trial σ} (htest : t.test = t'.test)
    {r r' uncompared : Except Failure α} (h : Strays t r uncompared)
    (h' : Strays t' r' uncompared) : Concur t.test t.checks t'.checks ⟨α, r⟩ ⟨α, r'⟩ := by
  rcases h with rfl | ⟨⟨x, rfl⟩, e, rfl, hdeviation⟩ <;>
    rcases h' with rfl | ⟨⟨y, hy⟩, e', rfl, hdeviation'⟩
  · exact .same _
  · exact hy ▸ .second y (htest ▸ hdeviation')
  · exact .first x hdeviation
  · exact .both hdeviation (htest ▸ hdeviation')

/-- Step by step the results of two runs concur. -/
theorem concur_of_alike {b : Binding σ} (steps : List ((α : Type) × Step α)) {t t' : Trial σ}
    (hsetting : t.setting = t'.setting) (hvm : t.vm = t'.vm) :
    List.Forall₂ (Concur t.test t.checks t'.checks) (run b steps t).1 (run b steps t').1 := by
  induction steps generalizing t t' with
  | nil => exact .nil
  | cons s steps ih =>
    have htest : t.test = t'.test := congrArg Setting.test hsetting
    have hstrays := (s.2.run_transparent b).strays t
    have hstrays' := (s.2.run_transparent b).strays t'
    rw [← hsetting, ← hvm] at hstrays'
    obtain ⟨hnext, hnextVm⟩ := Step.run_alike (b := b) hsetting hvm s.2
    obtain ⟨hchecks, hsame⟩ := (s.2.run_transparent b).steady t
    obtain ⟨hchecks', _⟩ := (s.2.run_transparent b).steady t'
    have hrest := ih hnext hnextVm
    rw [hchecks, hchecks', hsame] at hrest
    exact .cons (concur_of_strays htest hstrays hstrays') hrest

/-- Whatever is compared and with what, a run takes the machine, the context and the producer through
the same states; and a step whose results differ ended in a deviation that was checked for. -/
theorem runs_concur (b : Binding σ) (steps : List ((α : Type) × Step α)) (t : Trial σ)
    (oracle : Fixture.Oracle) (checks : Checks) :
    let t' := { t with oracle, checks }
    List.Forall₂ (Concur t.test t.checks checks) (run b steps t).1 (run b steps t').1 ∧
    ∀ n, let u := (run b (steps.take n) t).2
      let u' := (run b (steps.take n) t').2
      u.vm = u'.vm ∧ b.root u.vm = b.root u'.vm ∧ u.context = u'.context ∧
        u.producer = u'.producer := by
  intro t'
  have hsetting : t.setting = t'.setting := rfl
  have hvm : t.vm = t'.vm := rfl
  refine ⟨concur_of_alike steps hsetting hvm, fun n => ?_⟩
  obtain ⟨hsetting, hvm⟩ := run_alike (b := b) hsetting hvm (steps.take n)
  exact ⟨hvm, congrArg b.root hvm, congrArg Setting.context hsetting,
    congrArg Setting.producer hsetting⟩

end Conformance.Trial
