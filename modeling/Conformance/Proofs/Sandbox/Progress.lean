import Conformance.Proofs.Sandbox.Effects

namespace Conformance.Sandbox

open Machine (Error)

variable {s s' : Sandbox} {id : UInt64} {a : Actor} {m : Message}

/-- No ID is left for the recipient of a message, who would have to be created. -/
def Crowded (s : Sandbox) (m : Message) : Prop :=
  s.resolve m.recipient = none ∧ s.nextId.toNat = 18446744073709551615

theorem debit_of_covered {amount : TokenAmount} (ha : s.actors.get? id = some a)
    (hle : amount ≤ a.balance) (uncovered : Error) :
    s.debit id amount uncovered = .ok (s.putActor id { a with balance := a.balance - amount }) := by
  simp [debit, actorAt, ha, TokenAmount.sub?, hle, bind, Except.bind, pure, Except.pure]

theorem credit_of_found (ha : s.actors.get? id = some a) (amount : TokenAmount) :
    s.credit id amount = .ok (s.putActor id { a with balance := a.balance + amount }) := by
  simp [credit, actorAt, ha, bind, Except.bind, pure, Except.pure]

theorem transfer_total {sender receiver : UInt64} {value : TokenAmount} {c : Actor}
    (ha : s.actors.get? sender = some a) (hvalue : value ≤ a.balance)
    (hc : s.actors.get? receiver = some c) :
    ∃ s', s.transfer sender receiver value = (.ok (), s') := by
  obtain ⟨d, hd⟩ : ∃ d, (s.putActor sender { a with balance := a.balance - value }).actors.get?
      receiver = some d := by
    rw [get?_putActor]
    split
    · exact ⟨_, rfl⟩
    · exact ⟨c, hc⟩
  simp only [transfer, debit_of_covered ha hvalue, credit_of_found hd]
  exact ⟨_, rfl⟩

/-- A location fails just if there is nobody yet and no ID left. -/
theorem locate_eq_error {address : Address} {e : Error} :
    s.locate address = .error e ↔ (s.resolve address = none ∧
      (address.id?.getD s.nextId).toNat = 18446744073709551615) ∧
      e = .idSpaceExhausted address := by
  unfold locate
  cases hr : s.resolve address with
  | some id => simp
  | none =>
    simp only [insertActor, hr, Option.isSome_none, Bool.false_eq_true, ↓reduceIte, true_and]
    cases hnext : Word.next? (address.id?.getD s.nextId) with
    | none => simp [Word.next?_eq_none hnext, eq_comm]
    | some after =>
      have hafter := Word.next?_eq_some hnext
      have hmax := after.toNat_lt
      simp only [reduceCtorEq, false_iff, not_and]
      omega

/-- Whom a location leads to is there. -/
theorem found_of_locate (hs : Sound s) {address : Address} (h : s.locate address = .ok (id, s')) :
    ∃ a, s'.actors.get? id = some a := by
  rcases locate_cases h with ⟨rfl, hid⟩ | hins
  · exact hs.found hid
  · rw [actors_of_insertActor hins, SortedMap.get?_insert, if_pos rfl]
    exact ⟨_, rfl⟩

/-- An execution that the balance of its sender covers fails for want of an ID only. -/
theorem crowded_of_course (hs : Sound s) (ha : s.actors.get? id = some a) {left : Int}
    {code : ExitCode} {e : Error} (hvalue : code = .ok → m.value ≤ a.balance)
    (h : Course s id m left code (.error e) s') : code = .ok ∧ Crowded s m := by
  cases h with
  | lost hkind hloc =>
    obtain ⟨⟨hnone, hlast⟩, _⟩ := locate_eq_error.mp hloc
    rw [Address.id?_of_key (hkind hnone), Option.getD_none] at hlast
    exact ⟨rfl, hnone, hlast⟩
  | @failed r t _ _ hloc ht =>
    obtain ⟨c, hc⟩ := found_of_locate hs hloc
    obtain ⟨t', ht'⟩ := transfer_total (get?_locate hs hloc ha) (hvalue rfl) hc
    cases ht.symm.trans ht'

/-- After an execution the sender still owns what was not available for it. -/
theorem balance_of_course (hs : Sound s) (ha : s.actors.get? id = some a) {left : Int}
    {code : ExitCode} {x : ExitCode × Int64} {held : TokenAmount}
    (hvalue : code = .ok → m.value ≤ a.balance - held) (hheld : held ≤ a.balance)
    (h : Course s id m left code (.ok x) s') :
    ∃ b, s'.actors.get? id = some b ∧ held ≤ b.balance := by
  cases h with
  | stopped => exact ⟨a, ha, hheld⟩
  | sent _ hloc _ ht =>
    obtain ⟨b, hb, balance, hpaid, hbalance⟩ := (transferred_of_ok ht).paid
    obtain rfl := Option.some.inj ((get?_locate hs hloc ha).symm.trans hb)
    have hcovered := hvalue rfl
    refine ⟨_, hpaid, ?_⟩
    dsimp only
    lia

theorem settle_total {sender : UInt64} (code : ExitCode) {gasUsed : Int64} {gas : Nat}
    (hgas : gasUsed.toInt = gas) (ha : s.actors.get? sender = some a)
    (hfee : gas * m.price ≤ a.balance) :
    ∃ o s', s.settle sender m code gasUsed = (.ok o, s') := by
  rw [← fee_eq, ← Word.bits_of_toInt hgas] at hfee
  simp only [settle, debit_of_covered ha hfee]
  exact ⟨_, _, rfl⟩

/-- The deposit covers the price of all gas up to the limit. -/
theorem fee_le_deposit {gas : Nat} (h : gas ≤ m.gasLimit.toInt) : gas * m.price ≤ m.deposit := by
  have hgas : gas ≤ m.gasLimit.toInt.toNat := by omega
  have hprice : m.price ≤ m.gasFeeCap := Nat.min_le_left _ _
  rw [Message.deposit, Nat.mul_comm m.gasFeeCap]
  exact Nat.mul_le_mul hgas hprice

/-- A message succeeds just if none of the exit codes of a failure applies. -/
theorem verdict_eq_ok {available : TokenAmount} {g : Nat} :
    s.verdict m available g = .ok ↔ m.method = Message.send ∧ m.value ≤ available ∧
      (s.resolve m.recipient = none → m.recipient.isId = false) ∧
      g + s.transferGas m ≤ m.gasLimit.toInt := by
  unfold verdict
  constructor
  · intro h
    split at h
    · cases h
    split at h
    · cases h
    split at h
    · cases h
    split at h
    · cases h
    rename_i hmethod hfunds hid hgas
    exact ⟨not_not.mp hmethod, Nat.not_lt.mp hfunds, by simpa using hid, Int.not_lt.mp hgas⟩
  · rintro ⟨hmethod, hfunds, hkey, hgas⟩
    rw [if_neg (not_not.mpr hmethod), if_neg (Nat.not_lt.mpr hfunds), if_neg (by simpa using hkey),
      if_neg (Int.not_lt.mpr hgas)]

/-- A message that is run on what its sender owns besides the deposit fails for want of an ID only,
unless a sum is out of range. -/
theorem crowded_of_run (hs : Sound s) (ha : s.actors.get? id = some a)
    (hcovered : m.deposit ≤ a.balance) {inclusion : Int64} {g : Nat} (hinc : inclusion.toInt = g)
    (hlimit : inclusion ≤ m.gasLimit) {e : Error} (hquiet : e.isOverflow = false)
    (h : s.run id m (a.balance - m.deposit) inclusion = (.error e, s')) :
    s.verdict m (a.balance - m.deposit) g = .ok ∧ Crowded s m := by
  have hvalue : s.verdict m (a.balance - m.deposit) g = .ok → m.value ≤ a.balance - m.deposit :=
    fun hok => (verdict_eq_ok.mp hok).2.1
  unfold run at h
  split at h
  · cases h
    cases hquiet
  · rename_i gasLeft hsub
    have hleft := Word.sub?_eq_some hsub
    have hcourse := execute_course s id (a.balance - m.deposit) (hinc ▸ hleft)
    rcases hex : s.execute id m (a.balance - m.deposit) gasLeft with ⟨e' | ⟨code, gas⟩, s₁⟩ <;>
      rw [hex] at hcourse h
    · have hown := fun hok => Nat.le_trans (hvalue hok) (Nat.sub_le _ _)
      exact crowded_of_course hs ha hown hcourse
    · obtain rfl := hcourse.code_eq
      simp only at h
      split at h
      · cases h
        cases hquiet
      · -- What is left to the sender covers the price of all gas there is.
        rename_i total htotal
        obtain ⟨hused, hleast, hmost⟩ := gasFor_of_course hinc hlimit htotal hcourse
        rw [← hused] at hleast hmost
        obtain ⟨n, hn⟩ := Int.eq_ofNat_of_zero_le (Int.le_trans (Int.natCast_nonneg g) hleast)
        obtain ⟨b, hb, hheld⟩ := balance_of_course hs ha hvalue hcovered hcourse
        have hfee := Nat.le_trans (fee_le_deposit (hn ▸ hmost)) hheld
        obtain ⟨o, t, ht⟩ := settle_total (s.verdict m (a.balance - m.deposit) g) hn hb hfee
        cases ht.symm.trans h

/-- The nonce that is used up before plays no part in this. -/
theorem crowded_of_admitted (hs : Sound s) (ha : s.actors.get? id = some a) {nonce : UInt64}
    (hcovered : m.deposit ≤ a.balance) {inclusion : Int64} {g : Nat} (hinc : inclusion.toInt = g)
    (hlimit : inclusion ≤ m.gasLimit) {e : Error} (hquiet : e.isOverflow = false)
    (h : (s.putActor id { a with nonce }).run id m (a.balance - m.deposit) inclusion =
      (.error e, s')) :
    s.verdict m (a.balance - m.deposit) g = .ok ∧ Crowded s m := by
  have hbefore := resolve_putActor (b := { a with nonce }) ha m.recipient
  have hput : Sound (s.putActor id { a with nonce }) := hs.put ha rfl
  obtain ⟨hverdict, hnone, hlast⟩ := crowded_of_run (a := { a with nonce }) hput
    (get?_putActor_self _ _ _) hcovered hinc hlimit hquiet h
  exact ⟨verdict_congr hbefore _ _ ▸ hverdict, hbefore ▸ hnone, hlast⟩

/-- A message that fails was not to be rejected, and its sender has no nonce left, or it needs an ID
that there is not. -/
theorem crowded_of_apply (hs : Sound s) {length : Nat} (hlen : length ≤ maxLength) {e : Error}
    (h : apply m length s = (.error e, s')) :
    s.rejection? m (38 + length) = none ∧ ∃ a, s.actor? m.sender = some a ∧
      (a.nonce.toNat = maxNonces ∨
        s.verdict m (a.balance - m.deposit) (38 + length) = .ok ∧ Crowded s m) := by
  cases hreason : s.rejection? m (38 + length) with
  | some code =>
    cases (apply_of_rejected hs hlen hreason).symm.trans h
  | none =>
    obtain ⟨inclusion, id, a, hinc, hlimit, hsender, ha, hcovered, hlast | ⟨nonce, _, hrun⟩⟩ :=
      apply_of_admitted hs hlen hreason
    · exact ⟨rfl, a, actor?_of_resolve hsender ha, .inl hlast.1⟩
    · have hquiet : Quiet
          ((s.putActor id { a with nonce }).run id m (a.balance - m.deposit) inclusion).1 :=
        quiet_run _ id _ (by omega) (by omega) hlimit
      rw [← hrun, h] at hquiet
      exact ⟨rfl, a, actor?_of_resolve hsender ha, .inr (crowded_of_admitted hs ha hcovered hinc
        hlimit (hquiet e rfl) (hrun.symm.trans h))⟩

end Conformance.Sandbox
