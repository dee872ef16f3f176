import Conformance.Proofs.Sandbox.Atomicity

namespace Conformance.Sandbox

open Machine (Error Application)

/-- The words that a message goes through, as far as it gets: each sum and each difference is one,
and those that prices are multiplied with are not negative. -/
structure InRange (s : Sandbox) (m : Message) (length : Nat) (inclusion : Int64) : Prop where
  measured : (Int64.ofNat length).toInt = length
  included : inclusionGas? length = some inclusion
  /-- A rejected message is fined for the inclusion. -/
  fine : 0 ≤ inclusion
  /-- Without gas for its inclusion a message is rejected before its deposit is reckoned. -/
  deposit : inclusion ≤ m.gasLimit → 0 ≤ m.gasLimit
  creation : Word.add? sendGas createGas = some (sendGas + createGas)
  nonce : ∀ {sender a available}, s.admission m inclusion = .ok (.admitted sender a available) →
    ∃ nonce, Word.next? a.nonce = some nonce
  gasLeft : ∀ {sender a available}, s.admission m inclusion = .ok (.admitted sender a available) →
    ∃ gasLeft, Word.sub? m.gasLimit inclusion = some gasLeft ∧ 0 ≤ gasLeft
  /-- The gas that is paid for is all gas that was used, up to the limit. -/
  gasUsed : ∀ {sender a available nonce gasLeft code gas s'},
    s.admission m inclusion = .ok (.admitted sender a available) →
    Word.next? a.nonce = some nonce → Word.sub? m.gasLimit inclusion = some gasLeft →
    (s.putActor sender { a with nonce }).execute sender m available gasLeft =
      (.ok (code, gas), s') →
    ∃ total, Word.add? inclusion gas = some total ∧ 0 ≤ min total m.gasLimit

variable {s s' : Sandbox} {m : Message} {length : Nat}

theorem inRange_of_le (hlen : length ≤ maxLength)
    (hnonce : ∀ a, s.actor? m.sender = some a → a.nonce.toNat < maxNonces) :
    ∃ inclusion, InRange s m length inclusion := by
  have hfits := fits_of_le hlen
  obtain ⟨inclusion, hinclusion, hinc⟩ := inclusionGas?_of_lt hfits
  have hmax := m.gasLimit.toInt_lt
  have hzero : (0 : Int64).toInt = 0 := rfl
  -- Between no gas and the limit every difference is in range.
  have hsub : inclusion ≤ m.gasLimit →
      ∃ gasLeft, Word.sub? m.gasLimit inclusion = some gasLeft ∧ 0 ≤ gasLeft := by
    intro hlimit
    rw [Int64.le_iff_toInt_le] at hlimit
    obtain ⟨gasLeft, hleft⟩ := Option.ne_none_iff_exists'.mp
      (Word.sub?_ne_none (a := m.gasLimit) (b := inclusion) (by omega) (by omega))
    refine ⟨gasLeft, hleft, ?_⟩
    rw [Int64.le_iff_toInt_le, Word.sub?_eq_some hleft, hzero]
    omega
  refine ⟨inclusion, ?_⟩
  constructor
  case measured => exact Int64.toInt_ofNat_of_lt (Nat.lt_of_add_left_lt hfits)
  case included => exact hinclusion
  case fine =>
    rw [Int64.le_iff_toInt_le, hzero]
    omega
  case deposit =>
    intro hlimit
    rw [Int64.le_iff_toInt_le] at hlimit ⊢
    omega
  case creation => rfl
  case nonce =>
    intro sender a available hadm
    obtain ⟨hsender, ha, _⟩ := admission_ok hadm
    have hbelow := hnonce a (actor?_of_resolve hsender ha)
    exact Option.ne_none_iff_exists'.mp (Word.next?_ne_none hbelow)
  case gasLeft =>
    intro sender a available hadm
    obtain ⟨_, _, _, _, hlimit, _⟩ := admission_ok hadm
    exact hsub hlimit
  case gasUsed =>
    intro sender a available nonce gasLeft code gas t hadm _ hleft hex
    obtain ⟨_, _, _, _, hlimit, _⟩ := admission_ok hadm
    rw [Int64.le_iff_toInt_le] at hlimit
    have hleft := Word.sub?_eq_some hleft
    obtain ⟨hleast, hmost⟩ := gas_execute (by omega) (congrArg Prod.fst hex)
    unfold maxLength at hlen
    obtain ⟨total, htotal⟩ := Option.ne_none_iff_exists'.mp
      (Word.add?_ne_none (a := inclusion) (b := gas) (by omega) (by omega))
    refine ⟨total, htotal, ?_⟩
    rw [Int64.le_iff_toInt_le, Word.toInt_min, Word.add?_eq_some htotal, hzero]
    omega

/-- Only a sender that is not there is invalid, since all actors are accounts. -/
theorem resolve_of_rejection {g : Nat} (h : s.rejection? m g = some .senderInvalid) :
    s.resolve m.sender = none := by
  unfold rejection? at h
  split at h
  · cases h
  split at h
  · assumption
  split at h <;> cases h

theorem verdict_ne_senderInvalid (s : Sandbox) (m : Message) (available : TokenAmount) (g : Nat) :
    s.verdict m available g ≠ .senderInvalid := by
  unfold verdict
  repeat' split
  all_goals decide

theorem resolve_of_senderInvalid (hs : Sound s) (hlen : length ≤ maxLength) {o : Outcome}
    (h : apply m length s = (.ok o, s')) (hcode : o.receipt.exitCode = .senderInvalid) :
    s.resolve m.sender = none := by
  cases hreason : s.rejection? m (38 + length) with
  | some code =>
    cases (apply_of_rejected hs hlen hreason).symm.trans h
    dsimp only at hcode
    exact resolve_of_rejection (hcode ▸ hreason)
  | none =>
    obtain ⟨inclusion, id, a, hinc, hlimit, _, ha, _, ⟨_, hrun⟩ | ⟨nonce, hnonce, hrun⟩⟩ :=
      apply_of_admitted hs hlen hreason
    · cases hrun.symm.trans h
    · obtain ⟨gas, happlied⟩ :=
        applied_of_run hs ha hnonce hinc hlimit (hrun.symm.trans h)
      exact absurd (happlied.exitCode.symm.trans hcode) (verdict_ne_senderInvalid _ _ _ _)

/-- In every state of a run a message whose sender has a nonce left fails just if it is stranded.
No actor goes missing then, nothing is paid that its sender does not have, and no word is out of
range. -/
theorem stranded_of_ran {log : List (Application Sandbox)} (hran : machine.Ran {} s log)
    (hlen : length ≤ 2 ^ 62) (hnonce : ∀ a, s.actor? m.sender = some a → a.nonce.toNat < maxNonces)
    (epoch : Int64) (miner : Address) :
    ((∃ e s', machine.apply epoch miner m length s = (.error e, s')) ↔
      Stranded s m (38 + length)) ∧
    (∀ e s', machine.apply epoch miner m length s = (.error e, s') →
      e = .ofMachine (.idSpaceExhausted m.recipient)) ∧
    (∀ o s', machine.apply epoch miner m length s = (.ok o, s') →
      o.receipt.exitCode = .senderInvalid → s.resolve m.sender = none) ∧
    ∃ inclusion, InRange s m length inclusion := by
  have hs : Sound s := sound_fresh.edits (edits_of_ran hran)
  have hstranded : ∀ e s', machine.apply epoch miner m length s = (.error e, s') →
      Stranded s m (38 + length) ∧ e = .ofMachine (.idSpaceExhausted m.recipient) := by
    intro e s' h
    obtain ⟨cause, rfl, hfails⟩ := machine_apply_error h
    have hquiet := quiet_apply hnonce hlen cause (congrArg Prod.fst hfails)
    have hshort := Nat.lt_of_add_left_lt (fits_of_le hlen)
    obtain ⟨rfl, _⟩ := spent_of_apply hs hshort hquiet hfails
    exact ⟨(stranded_of_apply hs hshort hquiet hfails).1, rfl⟩
  refine ⟨⟨?_, ?_⟩, ?_, ?_, inRange_of_le hlen hnonce⟩
  · rintro ⟨e, s', h⟩
    exact (hstranded e s' h).1
  · intro h
    obtain ⟨a, ha, _⟩ := h.funded
    obtain ⟨s', hfails, _⟩ := apply_of_stranded hs h ha (Nat.ne_of_lt (hnonce a ha))
    refine ⟨.ofMachine (.idSpaceExhausted m.recipient), s', ?_⟩
    rw [machine_apply, hfails]
    rfl
  · intro e s' h
    exact (hstranded e s' h).2
  · intro o s' h
    exact resolve_of_senderInvalid hs hlen (Op.ofStep_ok h)

/-- Where no ID is left a payment to a key that nobody has used is stranded, and all its words are
in range. -/
theorem stranded_of_ran_offering : machine.Ran {} full [] ∧ Stranded full offering 193 ∧
    ∃ inclusion, InRange full offering 155 inclusion := by
  have hlen : 155 ≤ 2 ^ 62 := by decide
  have hsender : full.actor? offering.sender = some (.account 10000) := by decide +kernel
  have hnonce : ∀ a, full.actor? offering.sender = some a → a.nonce.toNat < maxNonces := by
    intro a ha
    obtain rfl := Option.some.inj (hsender.symm.trans ha)
    decide
  have hfails : machine.apply 1 (.id 1000) offering 155 full =
      (.error (.ofMachine (.idSpaceExhausted (.bls [1]))), (apply offering 155 full).2) := by
    rw [machine_apply, apply_offering]
    rfl
  obtain ⟨hstranded, _, _, hwords⟩ := stranded_of_ran ran_full hlen hnonce 1 (.id 1000)
  exact ⟨ran_full, hstranded.mp ⟨_, _, hfails⟩, hwords⟩

end Conformance.Sandbox
