import Conformance.Proofs.Sandbox.Growth
import Conformance.Proofs.Sandbox.Overflow

namespace Conformance

namespace Word

theorem bits_of_nonneg {n : Int64} (h : 0 ≤ n.toInt) : bits n = n.toInt.toNat := by
  rw [bits, Int64.toNat_toUInt64_of_le (Int64.le_iff_toInt_le.mpr h), Int64.toNat_toInt]

theorem bits_of_toInt {n : Int64} {k : Nat} (h : n.toInt = k) : bits n = k := by
  rw [bits_of_nonneg (by omega), h, Int.toNat_natCast]

theorem toInt_min (a b : Int64) : (min a b).toInt = min a.toInt b.toInt := by
  change (if a ≤ b then a else b).toInt = _
  simp only [Int64.le_iff_toInt_le]
  split <;> omega

theorem next?_eq_none {n : UInt64} (h : next? n = none) : n.toNat = 18446744073709551615 := by
  unfold next? at h
  split at h
  · assumption
  · cases h

end Word

/-- What the sender of a message has to own: all its gas at the highest price. -/
def Message.deposit (m : Message) : TokenAmount := m.gasFeeCap * m.gasLimit.toInt.toNat

/-- What gas of a message costs: a base fee of one and the premium, up to the cap. -/
def Message.price (m : Message) : TokenAmount := min m.gasFeeCap (1 + m.gasPremium)

namespace Sandbox

open Machine (Error)

/-- Why a message is rejected that needs some gas for its inclusion: the first reason there is. -/
def rejection? (s : Sandbox) (m : Message) (inclusion : Nat) : Option ExitCode :=
  if m.gasLimit.toInt < inclusion then some .outOfGas
  else if s.resolve m.sender = none then some .senderInvalid
  else if (s.actor? m.sender).any (fun a => a.nonce = m.nonce ∧ m.deposit ≤ a.balance) then none
  else some .senderStateInvalid

/-- The gas of a transfer, more if its receiver has to be created. -/
def transferGas (s : Sandbox) (m : Message) : Nat :=
  if s.resolve m.recipient = none then 100 + 1000 else 100

/-- The exit code of a message that is not rejected, where its sender has something available
besides the deposit: the first that applies. -/
def verdict (s : Sandbox) (m : Message) (available : TokenAmount) (inclusion : Nat) : ExitCode :=
  if m.method ≠ Message.send then .invalidMethod
  else if available < m.value then .insufficientFunds
  else if s.resolve m.recipient = none ∧ m.recipient.isId then .invalidReceiver
  else if m.gasLimit.toInt < inclusion + s.transferGas m then .outOfGas
  else .ok

/-- The gas of a message by its exit code. What is out of gas has used all of it. -/
def gasFor (s : Sandbox) (m : Message) (inclusion : Nat) (code : ExitCode) : Int :=
  if code = .outOfGas then m.gasLimit.toInt
  else min (inclusion + if code = .ok then (s.transferGas m : Int) else 100) m.gasLimit.toInt

variable {s s' : Sandbox} {id : UInt64} {a : Actor} {m : Message}

theorem inclusionGas?_of_lt {length : Nat} (hlen : 38 + length < 2 ^ 63) :
    ∃ inclusion, inclusionGas? length = some inclusion ∧
      inclusion.toInt = (38 + length : Nat) := by
  obtain ⟨inclusion, h⟩ := Option.ne_none_iff_exists'.mp (inclusionGas?_ne_none hlen)
  exact ⟨inclusion, h, inclusionGas?_eq_some (Nat.lt_of_add_left_lt hlen) h⟩

theorem burnRate_add_tipRate (m : Message) : burnRate m + tipRate m = m.price := by
  simp only [burnRate, tipRate, Message.price, baseFee]
  lia

/-- An ID that an address stands for is in use. -/
theorem Sound.found (hs : Sound s) {address : Address} (h : s.resolve address = some id) :
    ∃ a, s.actors.get? id = some a := by
  cases address with
  | id n =>
    obtain ⟨hn, rfl⟩ := contains_of_resolve_id h
    exact Option.isSome_iff_exists.mp hn
  | _ => exact hs.named _ _ h

section Admission
variable {inclusion : Int64} {g : Nat} (hs : Sound s) (hinc : inclusion.toInt = g)
include hs hinc

/-- Where there is gas for the inclusion, the record of the sender decides. -/
theorem admission_found {sender : UInt64} (hlimit : inclusion ≤ m.gasLimit)
    (hsender : s.resolve m.sender = some sender) (ha : s.actors.get? sender = some a) :
    s.admission m inclusion =
      .ok (if a.nonce = m.nonce ∧ m.deposit ≤ a.balance
        then .admitted sender a (a.balance - m.deposit) else .rejected .senderStateInvalid) := by
  have hdeposit : m.gasFeeCap * Word.bits m.gasLimit = m.deposit := by
    rw [Int64.le_iff_toInt_le, hinc] at hlimit
    rw [Message.deposit, Word.bits_of_nonneg (by omega)]
  have hcode := hs.accounts sender a ha
  rw [admission, if_neg (Int64.not_lt.mpr hlimit)]
  simp only [hsender, actorAt, ha, hcode, hdeposit, TokenAmount.sub?, ne_eq, not_true_eq_false,
    ↓reduceIte]
  by_cases hnonce : a.nonce = m.nonce
  · by_cases hcovered : m.deposit ≤ a.balance
    · simp only [hnonce, hcovered, not_true_eq_false, and_self, ↓reduceIte]
    · simp only [hnonce, hcovered, not_true_eq_false, and_false, ↓reduceIte]
  · simp only [hnonce, not_false_eq_true, false_and, ↓reduceIte]

/-- A message is rejected for the first reason there is. -/
theorem admission_of_rejected {code : ExitCode} (h : s.rejection? m g = some code) :
    s.admission m inclusion = .ok (.rejected code) := by
  unfold rejection? at h
  split at h
  · rename_i hgas
    cases h
    rw [← hinc, ← Int64.lt_iff_toInt_lt] at hgas
    rw [admission, if_pos hgas]
  rename_i hgas
  rw [← hinc, ← Int64.lt_iff_toInt_lt] at hgas
  split at h
  · rename_i hnone
    cases h
    simp only [admission, if_neg hgas, hnone]
  rename_i hsome
  obtain ⟨sender, hsender⟩ := Option.ne_none_iff_exists'.mp hsome
  obtain ⟨a, ha⟩ := hs.found hsender
  split at h
  · cases h
  · rename_i hstate
    cases h
    rw [actor?_of_resolve hsender ha, Option.any_some, decide_eq_true_eq] at hstate
    rw [admission_found hs hinc (Int64.not_lt.mp hgas) hsender ha, if_neg hstate]

/-- A message that there is no reason against is admitted. -/
theorem admission_of_none (h : s.rejection? m g = none) :
    ∃ sender a, s.resolve m.sender = some sender ∧ s.actors.get? sender = some a ∧
      inclusion ≤ m.gasLimit ∧ m.deposit ≤ a.balance ∧
      s.admission m inclusion = .ok (.admitted sender a (a.balance - m.deposit)) := by
  unfold rejection? at h
  split at h
  · cases h
  rename_i hgas
  rw [← hinc, ← Int64.lt_iff_toInt_lt] at hgas
  split at h
  · cases h
  rename_i hsome
  obtain ⟨sender, hsender⟩ := Option.ne_none_iff_exists'.mp hsome
  obtain ⟨a, ha⟩ := hs.found hsender
  split at h
  · rename_i hstate
    rw [actor?_of_resolve hsender ha, Option.any_some, decide_eq_true_eq] at hstate
    refine ⟨sender, a, hsender, ha, Int64.not_lt.mp hgas, hstate.2, ?_⟩
    rw [admission_found hs hinc (Int64.not_lt.mp hgas) hsender ha, if_pos hstate]
  · cases h

end Admission

/-- How an execution goes by its verdict. It stops there with nothing touched, or looks for the
recipient and pays it. -/
inductive Course (s : Sandbox) (sender : UInt64) (m : Message) (left : Int) :
    ExitCode → Except Error (ExitCode × Int64) → Sandbox → Prop
  | stopped {code : ExitCode} {gas : Int64} (hcode : code ≠ .ok)
      (hgas : gas.toInt = if code = .outOfGas then left else 100) :
      Course s sender m left code (.ok (code, gas)) s
  | lost {e : Error} (hkind : s.resolve m.recipient = none → m.recipient.isId = false)
      (hloc : s.locate m.recipient = .error e) : Course s sender m left .ok (.error e) s
  | failed {r : UInt64} {t s' : Sandbox} {e : Error} (hloc : s.locate m.recipient = .ok (r, t))
      (ht : t.transfer sender r m.value = (.error e, s')) :
      Course s sender m left .ok (.error e) s'
  | sent {r : UInt64} {t s' : Sandbox} {gas : Int64}
      (hkind : s.resolve m.recipient = none → m.recipient.isId = false)
      (hloc : s.locate m.recipient = .ok (r, t)) (hgas : gas.toInt = s.transferGas m)
      (ht : t.transfer sender r m.value = (.ok (), s')) :
      Course s sender m left .ok (.ok (.ok, gas)) s'

namespace Course
variable {sender : UInt64} {left : Int} {code code' : ExitCode} {gas : Int64}

theorem code_eq (h : Course s sender m left code (.ok (code', gas)) s') : code' = code := by
  cases h <;> rfl

theorem gas_eq (h : Course s sender m left code (.ok (code', gas)) s') :
    gas.toInt = if code = .outOfGas then left else if code = .ok then (s.transferGas m : Int)
      else 100 := by
  cases h with
  | stopped hcode hgas => rw [hgas, if_neg hcode]
  | sent _ _ hgas _ => exact hgas

/-- Where the recipient is found, all depends on the transfer. -/
theorem of_transfer {r : UInt64} {t : Sandbox}
    (hkind : s.resolve m.recipient = none → m.recipient.isId = false)
    (hloc : s.locate m.recipient = .ok (r, t)) (hgas : gas.toInt = s.transferGas m) :
    Course s sender m left .ok ((t.transfer sender r m.value).1.map (fun _ => (.ok, gas)))
      (t.transfer sender r m.value).2 := by
  rcases ht : t.transfer sender r m.value with ⟨e | _, t'⟩
  · exact .failed hloc ht
  · exact .sent hkind hloc hgas ht

end Course

section Execution
variable {sender : UInt64} {available : TokenAmount} {gasLeft : Int64} {g : Nat}

/-- Where only gas can be missing, the recipient is located and paid if there is enough. -/
theorem execute_of_payable (sender : UInt64) (hleft : gasLeft.toInt = m.gasLimit.toInt - g)
    (hmethod : ¬ m.method ≠ Message.send) (hfunds : ¬ available < m.value)
    (hid : ¬ (s.resolve m.recipient = none ∧ m.recipient.isId)) :
    Course s sender m (m.gasLimit.toInt - g)
      (if m.gasLimit.toInt < g + s.transferGas m then .outOfGas else .ok)
      (s.execute sender m available gasLeft).1 (s.execute sender m available gasLeft).2 := by
  have hshort : ∀ cost : Int64, cost.toInt = s.transferGas m →
      (gasLeft < cost ↔ m.gasLimit.toInt < g + s.transferGas m) := by
    intro cost hcost
    rw [Int64.lt_iff_toInt_lt, hleft, hcost]
    omega
  have hkind : s.resolve m.recipient = none → m.recipient.isId = false := by simpa using hid
  have hout : Course s sender m (m.gasLimit.toInt - g) .outOfGas (.ok (.outOfGas, gasLeft)) s :=
    .stopped (by decide) hleft
  unfold execute
  rw [if_neg hmethod, if_neg hfunds]
  cases hr : s.resolve m.recipient with
  | some receiver =>
    have hloc : s.locate m.recipient = .ok (receiver, s) := by simp [locate, hr]
    have hcost : sendGas.toInt = s.transferGas m := by simp [transferGas, hr]; decide
    simp only [← hshort _ hcost]
    split
    · exact hout
    · exact .of_transfer hkind hloc hcost
  | none =>
    have hcost : (sendGas + createGas).toInt = s.transferGas m := by
      simp [transferGas, hr]; decide
    simp only [← hshort _ hcost, hkind hr, Bool.false_eq_true, ↓reduceIte]
    split
    · exact hout
    · rcases hins : s.insertActor m.recipient (.account 0) with e | ⟨receiver, t⟩
      · exact .lost hkind (by simp [locate, hr, hins])
      · exact .of_transfer hkind (by simp [locate, hr, hins]) hcost

/-- The verdict is the first exit code that applies. -/
theorem execute_course (s : Sandbox) (sender : UInt64) (available : TokenAmount)
    (hleft : gasLeft.toInt = m.gasLimit.toInt - g) :
    Course s sender m (m.gasLimit.toInt - g) (s.verdict m available g)
      (s.execute sender m available gasLeft).1 (s.execute sender m available gasLeft).2 := by
  unfold verdict
  by_cases hmethod : m.method ≠ Message.send
  · rw [execute, if_pos hmethod, if_pos hmethod]
    exact .stopped (by decide) rfl
  rw [if_neg hmethod]
  by_cases hfunds : available < m.value
  · rw [execute, if_neg hmethod, if_pos hfunds, if_pos hfunds]
    exact .stopped (by decide) rfl
  rw [if_neg hfunds]
  by_cases hid : s.resolve m.recipient = none ∧ m.recipient.isId
  · rw [execute, if_neg hmethod, if_neg hfunds, if_pos hid]
    simp only [hid.1, hid.2, ↓reduceIte]
    exact .stopped (by decide) rfl
  rw [if_neg hid]
  exact execute_of_payable sender hleft hmethod hfunds hid

/-- The gas of an outcome is what its exit code says, between the inclusion and the limit. -/
theorem gasFor_of_course {inclusion total gas : Int64} {code : ExitCode}
    (hinc : inclusion.toInt = g) (hlimit : inclusion ≤ m.gasLimit)
    (htotal : Word.add? inclusion gas = some total)
    (h : Course s sender m (m.gasLimit.toInt - g) code (.ok (code, gas)) s') :
    (min total m.gasLimit).toInt = s.gasFor m g code ∧
      g ≤ s.gasFor m g code ∧ s.gasFor m g code ≤ m.gasLimit.toInt := by
  have htotal := Word.add?_eq_some htotal
  rw [Int64.le_iff_toInt_le, hinc] at hlimit
  rw [Word.toInt_min, htotal, hinc, h.gas_eq, gasFor]
  split
  · omega
  · split <;> omega

/-- A message that is run comes to a verdict, is charged for by it, and pays for that. -/
theorem run_ok {inclusion : Int64} {o : Outcome} (hinc : inclusion.toInt = g)
    (hlimit : inclusion ≤ m.gasLimit)
    (h : s.run sender m available inclusion = (.ok o, s')) :
    ∃ (gas used : Int64) (s₁ : Sandbox),
      Course s sender m (m.gasLimit.toInt - g) (s.verdict m available g)
        (.ok (s.verdict m available g, gas)) s₁ ∧
      used.toInt = s.gasFor m g (s.verdict m available g) ∧ g ≤ used.toInt ∧
      used ≤ m.gasLimit ∧
      s₁.settle sender m (s.verdict m available g) used = (.ok o, s') := by
  rcases run_cases s sender m available inclusion with
    ⟨e, he⟩ | ⟨gasLeft, hleft, ⟨e, he⟩ | ⟨code, gas, s₁, total, hex, htotal, he⟩⟩ <;> rw [he] at h
  · cases h
  · cases h
  · have hcourse := execute_course s sender available (hinc ▸ Word.sub?_eq_some hleft)
    rw [hex] at hcourse
    obtain rfl := hcourse.code_eq
    obtain ⟨hused, hleast, hmost⟩ := gasFor_of_course hinc hlimit htotal hcourse
    refine ⟨gas, min total m.gasLimit, s₁, hcourse, hused, hused ▸ hleast, ?_, h⟩
    rw [Int64.le_iff_toInt_le, hused]
    exact hmost

end Execution

section Application
variable {length : Nat} (hs : Sound s) (hlen : length ≤ maxLength)
include hs hlen

/-- A message that is rejected leaves all as it is, and its miner is fined for the inclusion. -/
theorem apply_of_rejected {code : ExitCode} (h : s.rejection? m (38 + length) = some code) :
    apply m length s =
      (.ok { receipt := { exitCode := code, returnValue := [], gasUsed := 0 },
             penalty := 38 + length, reward := 0 }, s) := by
  obtain ⟨inclusion, hinclusion, hinc⟩ := inclusionGas?_of_lt (fits_of_le hlen)
  have hadm := admission_of_rejected hs hinc h
  have hfine : baseFee * Word.bits inclusion = 38 + length := by
    rw [Word.bits_of_toInt hinc, baseFee, Nat.one_mul]
  simp only [apply, hinclusion, hadm, rejected, hfine]

/-- A message that is not rejected runs with its nonce used up, unless it is the last. -/
theorem apply_of_admitted (h : s.rejection? m (38 + length) = none) :
    ∃ (inclusion : Int64) (sender : UInt64) (a : Actor),
      inclusion.toInt = (38 + length : Nat) ∧ inclusion ≤ m.gasLimit ∧
      s.resolve m.sender = some sender ∧ s.actors.get? sender = some a ∧ m.deposit ≤ a.balance ∧
      (a.nonce.toNat = maxNonces ∧ apply m length s = (.error .additionOverflow, s) ∨
        ∃ nonce : UInt64, nonce.toNat = a.nonce.toNat + 1 ∧
          apply m length s =
            (s.putActor sender { a with nonce }).run sender m (a.balance - m.deposit) inclusion) := by
  obtain ⟨inclusion, hinclusion, hinc⟩ := inclusionGas?_of_lt (fits_of_le hlen)
  obtain ⟨sender, a, hsender, ha, hlimit, hcovered, hadm⟩ := admission_of_none hs hinc h
  refine ⟨inclusion, sender, a, hinc, hlimit, hsender, ha, hcovered, ?_⟩
  cases hnonce : Word.next? a.nonce with
  | none =>
    refine .inl ⟨Word.next?_eq_none hnonce, ?_⟩
    simp only [apply, hinclusion, hadm, hnonce]
  | some nonce =>
    refine .inr ⟨nonce, Word.next?_eq_some hnonce, ?_⟩
    simp only [apply, hinclusion, hadm, hnonce]

end Application

end Sandbox
end Conformance
