import Conformance.Fixture.Oracle

namespace Conformance.Fixture

/-- A check of a value against the one that stands at a position of a list, if there is one. -/
structure Check.At {α : Type} (c : Check α) (values : List α) (n : Nat) (actual : α) : Prop where
  matched : c = .matched ↔ values[n]? = some actual
  mismatch : ∀ a b, c = .mismatch a b ↔ values[n]? = some a ∧ a ≠ actual ∧ b = actual
  missing : c = .missing ↔ values.length ≤ n

namespace Check
variable {α : Type} {values : List α}

theorem compare_at [DecidableEq α] (values : List α) (n : Nat) (actual : α) :
    (compare values[n]? actual).At values n actual := by
  unfold compare
  cases hvalue : values[n]? with
  | none =>
    have hlength := List.getElem?_eq_none_iff.mp hvalue
    exact ⟨by simp [hvalue], by simp [hvalue], by simp [hlength]⟩
  | some a =>
    have hlength : ¬ values.length ≤ n := by
      rw [← List.getElem?_eq_none_iff, hvalue]
      simp
    by_cases ha : a = actual
    · constructor <;> simp_all
    · constructor <;> simp_all [eq_comm]

theorem isMismatch_iff {c : Check α} : c.isMismatch = true ↔ ∃ a b, c = .mismatch a b := by
  cases c <;> simp [isMismatch]

/-- A position past the end of a list is followed by none within it. -/
theorem At.missing_mono {c c' : Check α} {n m : Nat} {a a' : α} (h : c.At values n a)
    (h' : c'.At values m a') (hle : n ≤ m) (hmissing : c = .missing) : c' = .missing :=
  h'.missing.mpr (Nat.le_trans (h.missing.mp hmissing) hle)

end Check

namespace Oracle

/-- Takes what some applications showed, one after the other. -/
def observeAll : List (Int64 × Cid) → Oracle → List Observation × Oracle
  | [], o => ([], o)
  | x :: xs, o =>
    let (seen, o) := o.observe x.1 x.2
    let (rest, o) := observeAll xs o
    (seen :: rest, o)

theorem length_observeAll (xs : List (Int64 × Cid)) (o : Oracle) :
    (o.observeAll xs).1.length = xs.length := by
  induction xs generalizing o with
  | nil => rfl
  | cons x xs ih => exact congrArg (· + 1) (ih (o.observe x.1 x.2).2)

/-- A recording ends with the gas and the roots of all applications, in order. -/
theorem observeAll_recording (xs : List (Int64 × Cid)) (r : Recorder) (w : Writer) :
    ((recording r w).observeAll xs).2 =
      recording { r with entry := ⟨r.entry.gas ++ xs.map Prod.fst,
                                   r.entry.roots ++ xs.map Prod.snd⟩ } w := by
  induction xs generalizing r with
  | nil => simp [observeAll]
  | cons x xs ih =>
    have hrest := ih (r.record x.1 x.2)
    simp only [Recorder.record, Entry.add, List.append_assoc, List.singleton_append] at hrest
    exact hrest

section Replaying
variable {r : Replayer} {e : Entry}

theorem observe_replaying (h : r.entry? = some e) (gas : Int64) (root : Cid) :
    (replaying r).observe gas root =
      (⟨.compare e.gas[r.gasRead]? gas, .compare e.roots[r.rootsRead]? root⟩,
        replaying { r with gasRead := r.gasRead + 1, rootsRead := r.rootsRead + 1 }) := by
  have hsame : Replayer.entry? { r with gasRead := r.gasRead + 1 } = some e := h
  simp only [observe, Replayer.nextGas, h, Replayer.nextRoot, hsame]

theorem observe_replaying_none (h : r.entry? = none) (gas : Int64) (root : Cid) :
    (replaying r).observe gas root = (⟨.missing, .missing⟩, replaying r) := by
  simp only [observe, Replayer.nextGas, h, Replayer.nextRoot, Check.compare]

/-- Each list is read by position. -/
theorem getElem?_observeAll_replaying (h : r.entry? = some e) (xs : List (Int64 × Cid)) (i : Nat) :
    ((replaying r).observeAll xs).1[i]? = xs[i]?.map (fun x =>
      ⟨.compare e.gas[r.gasRead + i]? x.1, .compare e.roots[r.rootsRead + i]? x.2⟩) := by
  induction xs generalizing r i with
  | nil => simp [observeAll]
  | cons x xs ih =>
    simp only [observeAll, observe_replaying h]
    cases i with
    | zero => simp
    | succ i =>
      have hnext : Replayer.entry?
          { r with gasRead := r.gasRead + 1, rootsRead := r.rootsRead + 1 } = some e := h
      have hrest := ih hnext i
      simp only [List.getElem?_cons_succ, hrest]
      congr 1
      funext x
      simp only [Nat.add_assoc, Nat.add_comm 1 i]

/-- Without an entry everything is missing, however much is shown. -/
theorem observeAll_replaying_none (h : r.entry? = none) (xs : List (Int64 × Cid)) :
    ((replaying r).observeAll xs).1 = List.replicate xs.length ⟨.missing, .missing⟩ := by
  induction xs with
  | nil => rfl
  | cons x xs ih => simp [observeAll, observe_replaying_none h, ih, List.replicate_succ]

/-- Every value is checked against the one at its position; a test without an entry has none. -/
theorem observeAll_at (store : Store) (test : String) {xs : List (Int64 × Cid)} {n : Nat}
    {x : Int64 × Cid} (hx : xs[n]? = some x) :
    let e := (store.get? test).getD {}
    ∃ o, ((replaying { store, test }).observeAll xs).1[n]? = some o ∧
      o.gas.At e.gas n x.1 ∧ o.root.At e.roots n x.2 := by
  intro e
  refine ⟨⟨.compare e.gas[n]? x.1, .compare e.roots[n]? x.2⟩, ?_, Check.compare_at _ _ _,
    Check.compare_at _ _ _⟩
  cases hentry : store.get? test with
  | some d =>
    rw [getElem?_observeAll_replaying (r := { store, test }) hentry, hx]
    simp [e, hentry]
  | none =>
    have hlt := (List.getElem?_eq_some_iff.mp hx).1
    rw [observeAll_replaying_none (r := { store, test }) hentry]
    simp [e, hentry, hlt, Check.compare]

/-- Where a list has ended everything later is missing too. -/
theorem missing_of_missing (store : Store) (test : String) (xs : List (Int64 × Cid)) {n m : Nat}
    (hle : n ≤ m) {o o' : Observation}
    (ho : ((replaying { store, test }).observeAll xs).1[n]? = some o)
    (ho' : ((replaying { store, test }).observeAll xs).1[m]? = some o') :
    (o.gas = .missing → o'.gas = .missing) ∧ (o.root = .missing → o'.root = .missing) := by
  have hvalue : ∀ {i : Nat} {c : Observation},
      ((replaying { store, test }).observeAll xs).1[i]? = some c → ∃ x, xs[i]? = some x := by
    intro i c hc
    have hi := (List.getElem?_eq_some_iff.mp hc).1
    rw [length_observeAll] at hi
    exact ⟨xs[i], List.getElem?_eq_getElem hi⟩
  obtain ⟨x, hx⟩ := hvalue ho
  obtain ⟨x', hx'⟩ := hvalue ho'
  obtain ⟨p, hp, hgas, hroot⟩ := observeAll_at store test hx
  obtain ⟨p', hp', hgas', hroot'⟩ := observeAll_at store test hx'
  obtain rfl := Option.some.inj (ho.symm.trans hp)
  obtain rfl := Option.some.inj (ho'.symm.trans hp')
  exact ⟨hgas.missing_mono hgas' hle, hroot.missing_mono hroot' hle⟩

/-- What was recorded is matched by the same again. -/
theorem observeAll_replaying_same {test : String} {store : Store} {xs : List (Int64 × Cid)}
    (h : store.get? test = some ⟨xs.map Prod.fst, xs.map Prod.snd⟩) :
    ((replaying { store, test }).observeAll xs).1 =
      List.replicate xs.length ⟨.matched, .matched⟩ := by
  refine List.ext_getElem? (fun i => ?_)
  rw [getElem?_observeAll_replaying (r := { store, test }) h]
  by_cases hi : i < xs.length
  · simp [hi, Check.compare]
  · simp [Nat.le_of_not_lt hi]

end Replaying
end Oracle
end Conformance.Fixture
