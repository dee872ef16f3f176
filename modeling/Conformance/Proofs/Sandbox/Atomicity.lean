import Conformance.Proofs.Sandbox.Application

namespace Conformance.Sandbox

open Machine (Error Application)

variable {s s' : Sandbox} {id : UInt64} {a : Actor} {m : Message}

/-- A message that nothing stands against, to a key that nobody has used, where no ID is left. It
needs some gas for its inclusion, and the gas of a transfer and of a creation besides. -/
structure Stranded (s : Sandbox) (m : Message) (inclusion : Nat) : Prop where
  accepted : s.rejection? m inclusion = none
  method : m.method = Message.send
  funded : ∃ a, s.actor? m.sender = some a ∧ m.value + m.deposit ≤ a.balance
  unknown : s.resolve m.recipient = none
  key : m.recipient.isId = false
  gas : inclusion + 1100 ≤ m.gasLimit.toInt
  exhausted : s.nextId.toNat = 18446744073709551615

/-- The sender of a message has used up a nonce, and all else is as it was. -/
def Spent (s : Sandbox) (m : Message) (s' : Sandbox) : Prop :=
  ∃ id a nonce, s.resolve m.sender = some id ∧ s.actors.get? id = some a ∧
    nonce.toNat = a.nonce.toNat + 1 ∧ s' = s.putActor id { a with nonce }

theorem Spent.ne (h : Spent s m s') : s' ≠ s := by
  obtain ⟨id, a, nonce, _, ha, hnonce, rfl⟩ := h
  intro heq
  have hput := get?_putActor_self s id { a with nonce }
  rw [heq, ha] at hput
  have hsame : a.nonce = nonce := congrArg Actor.nonce (Option.some.inj hput)
  rw [hsame] at hnonce
  omega

/-- A message that is stranded would succeed if there were an ID. -/
theorem stranded_iff {g : Nat} (hnone : s.rejection? m g = none) (ha : s.actor? m.sender = some a)
    (hcovered : m.deposit ≤ a.balance) :
    Stranded s m g ↔ s.verdict m (a.balance - m.deposit) g = .ok ∧ Crowded s m := by
  rw [verdict_eq_ok]
  constructor
  · rintro ⟨_, hmethod, ⟨b, hb, hfunds⟩, hunknown, hkey, hgas, hlast⟩
    obtain rfl := Option.some.inj (ha.symm.trans hb)
    rw [transferGas, if_pos hunknown]
    exact ⟨⟨hmethod, by lia, fun _ => hkey, by omega⟩, hunknown, hlast⟩
  · rintro ⟨⟨hmethod, hfunds, hkey, hgas⟩, hunknown, hlast⟩
    rw [transferGas, if_pos hunknown] at hgas
    exact ⟨hnone, hmethod, ⟨a, ha, by lia⟩, hunknown, hkey hunknown, by omega, hlast⟩

/-- Where no ID is left a key cannot be recorded. -/
theorem locate_of_crowded (h : Crowded s m) (hkey : m.recipient.isId = false) :
    s.locate m.recipient = .error (.idSpaceExhausted m.recipient) := by
  refine locate_eq_error.mpr ⟨⟨h.1, ?_⟩, rfl⟩
  rw [Address.id?_of_key hkey, Option.getD_none]
  exact h.2

/-- A message that needs an ID when there is none stops before anything is paid. -/
theorem run_of_crowded {sender : UInt64} {available : TokenAmount} {inclusion : Int64} {g : Nat}
    (hinc : inclusion.toInt = g) (hlimit : inclusion ≤ m.gasLimit)
    (hverdict : s.verdict m available g = .ok) (hcrowded : Crowded s m) :
    s.run sender m available inclusion = (.error (.idSpaceExhausted m.recipient), s) := by
  have hlimit := Int64.le_iff_toInt_le.mp hlimit
  have hmax := m.gasLimit.toInt_lt
  obtain ⟨gasLeft, hsub⟩ := Option.ne_none_iff_exists'.mp
    (Word.sub?_ne_none (a := m.gasLimit) (b := inclusion) (by omega) (by omega))
  have hcourse := execute_course s sender available (hinc ▸ Word.sub?_eq_some hsub)
  have hlost := locate_of_crowded hcrowded ((verdict_eq_ok.mp hverdict).2.2.1 hcrowded.1)
  rw [hverdict] at hcourse
  simp only [run, hsub]
  rcases hex : s.execute sender m available gasLeft with ⟨r, t⟩
  rw [hex] at hcourse
  cases hcourse with
  | stopped hcode => exact absurd rfl hcode
  | lost _ hloc =>
    cases hloc.symm.trans hlost
    rfl
  | failed hloc => cases hloc.symm.trans hlost
  | sent _ hloc => cases hloc.symm.trans hlost

/-- The sender of a message that is stranded has used up a nonce when the message fails. -/
theorem apply_of_stranded (hs : Sound s) {length : Nat} (h : Stranded s m (38 + length))
    (ha : s.actor? m.sender = some a) (hlast : a.nonce.toNat ≠ maxNonces) :
    ∃ s', apply m length s = (.error (.idSpaceExhausted m.recipient), s') ∧ Spent s m s' := by
  have hgas := h.gas
  have hmax := m.gasLimit.toInt_lt
  have hlen : 38 + length < 2 ^ 63 := by omega
  obtain ⟨inclusion, hinclusion, hinc⟩ := inclusionGas?_of_lt hlen
  obtain ⟨id, b, hsender, hb, hlimit, hcovered, hadm⟩ := admission_of_none hs hinc h.accepted
  obtain rfl := Option.some.inj (ha.symm.trans (actor?_of_resolve hsender hb))
  obtain ⟨nonce, hnonce⟩ := Option.ne_none_iff_exists'.mp
    (fun hnone => hlast (Word.next?_eq_none hnone))
  -- The nonce plays no part in where the recipient leads.
  have hbefore := resolve_putActor (b := { a with nonce }) hb m.recipient
  obtain ⟨hverdict, hunknown, hexhausted⟩ := (stranded_iff h.accepted ha hcovered).mp h
  rw [← verdict_congr hbefore] at hverdict
  refine ⟨s.putActor id { a with nonce }, ?_, id, a, nonce, hsender, hb,
    Word.next?_eq_some hnonce, rfl⟩
  simp only [apply, hinclusion, hadm, hnonce]
  exact run_of_crowded hinc hlimit hverdict ⟨hbefore ▸ hunknown, hexhausted⟩

/-- A message that fails on no overflow is stranded. -/
theorem stranded_of_apply (hs : Sound s) {length : Nat} (hlen : length < 2 ^ 63) {e : Error}
    (hquiet : e.isOverflow = false) (h : apply m length s = (.error e, s')) :
    Stranded s m (38 + length) ∧ ∃ a, s.actor? m.sender = some a ∧ a.nonce.toNat ≠ maxNonces := by
  unfold apply at h
  split at h
  · cases h
    cases hquiet
  rename_i inclusion hinclusion
  have hinc : inclusion.toInt = (38 + length : Nat) := inclusionGas?_eq_some hlen hinclusion
  cases hreason : s.rejection? m (38 + length) with
  | some code =>
    rw [admission_of_rejected hs hinc hreason] at h
    cases h
  | none =>
    obtain ⟨id, a, hsender, ha, hlimit, hcovered, hadm⟩ := admission_of_none hs hinc hreason
    have hfound := actor?_of_resolve hsender ha
    rw [hadm] at h
    simp only at h
    split at h
    · cases h
      cases hquiet
    · rename_i nonce hnonce
      have hcrowded := crowded_of_admitted hs ha hcovered hinc hlimit hquiet h
      refine ⟨(stranded_iff hreason hfound hcovered).mpr hcrowded, a, hfound, fun hlast => ?_⟩
      have hnext := Word.next?_eq_some hnonce
      have hmax := nonce.toNat_lt
      rw [hnext, hlast] at hmax
      exact absurd hmax (by decide)

/-- A message that fails on no overflow has cost its sender a nonce. -/
theorem spent_of_apply (hs : Sound s) {length : Nat} (hlen : length < 2 ^ 63) {e : Error}
    (hquiet : e.isOverflow = false) (h : apply m length s = (.error e, s')) :
    e = .idSpaceExhausted m.recipient ∧ Spent s m s' := by
  obtain ⟨hstranded, a, ha, hlast⟩ := stranded_of_apply hs hlen hquiet h
  obtain ⟨t, hfails, hspent⟩ := apply_of_stranded hs hstranded ha hlast
  cases hfails.symm.trans h
  exact ⟨rfl, hspent⟩

/-- In every state of a run a message fails just if it is stranded and its sender has a nonce left,
and then it costs the sender that nonce and changes nothing else. What lies in memory is shorter
than `2 ^ 63`. An overflow is no failure, since it stops whatever is running. -/
theorem spent_of_ran {log : List (Application Sandbox)} (hran : machine.Ran {} s log)
    {length : Nat} (hlen : length < 2 ^ 63) (epoch : Int64) (miner : Address) (m : Message) :
    ((∃ e s', machine.apply epoch miner m length s = (.error e, s') ∧ e.isOverflow = false) ↔
      Stranded s m (38 + length) ∧ ∃ a, s.actor? m.sender = some a ∧ a.nonce.toNat ≠ maxNonces) ∧
    ∀ e s', machine.apply epoch miner m length s = (.error e, s') → e.isOverflow = false →
      e = .ofMachine (.idSpaceExhausted m.recipient) ∧ Spent s m s' ∧ s' ≠ s := by
  have hs : Sound s := sound_fresh.edits (edits_of_ran hran)
  refine ⟨⟨?_, ?_⟩, ?_⟩
  · rintro ⟨e, s', h, hquiet⟩
    obtain ⟨cause, rfl, hfails⟩ := machine_apply_error h
    exact stranded_of_apply hs hlen hquiet hfails
  · rintro ⟨h, a, ha, hlast⟩
    obtain ⟨s', hfails, _⟩ := apply_of_stranded hs h ha hlast
    refine ⟨.ofMachine (.idSpaceExhausted m.recipient), s', ?_, rfl⟩
    rw [machine_apply, hfails]
    rfl
  · intro e s' h hquiet
    obtain ⟨cause, rfl, hfails⟩ := machine_apply_error h
    obtain ⟨rfl, hspent⟩ := spent_of_apply hs hlen hquiet hfails
    exact ⟨rfl, hspent, hspent.ne⟩

/-- A payment to a key that nobody has used. -/
def offering : Message where
  recipient := .bls [1]
  sender := .id 5
  nonce := 0
  value := 1
  method := Message.send
  params := []
  gasFeeCap := 1
  gasPremium := 1
  gasLimit := 2000

/-- The last ID but one is taken, and the actor 5 has something to spend. -/
def full : Sandbox :=
  (machine.call (.vm (.createActor .account (.id 18446744073709551614) 1 .emptyObject))
    (machine.call (.vm (.createActor .account (.id 5) 10000 .emptyObject)) {}).2).2

theorem ran_full : machine.Ran {} full [] :=
  (Machine.Ran.start.call (.vm (.createActor .account (.id 5) 10000 .emptyObject))).call
    (.vm (.createActor .account (.id 18446744073709551614) 1 .emptyObject))

theorem apply_offering :
    (apply offering 155 full).1 = .error (.idSpaceExhausted offering.recipient) := by
  decide +kernel

/-- There is no ID for the recipient. The sender has lost a nonce, and the same payment is too late
for it. -/
theorem spent_of_ran_offering : ∃ s', machine.Ran {} full [] ∧
    machine.apply 1 (.id 1000) offering 155 full =
      (.error (.ofMachine (.idSpaceExhausted (.bls [1]))), s') ∧
    Spent full offering s' ∧ s' ≠ full ∧
    (apply offering 155 s').1 = .ok ⟨⟨.senderStateInvalid, [], 0⟩, 193, 0⟩ := by
  let s' := (apply offering 155 full).2
  have hlen : 155 < 2 ^ 63 := by decide
  have hfails : machine.apply 1 (.id 1000) offering 155 full =
      (.error (.ofMachine (.idSpaceExhausted (.bls [1]))), s') := by
    rw [machine_apply, apply_offering]
    rfl
  obtain ⟨_, hspent, hne⟩ := (spent_of_ran ran_full hlen 1 (.id 1000) offering).2 _ _ hfails rfl
  exact ⟨s', ran_full, hfails, hspent, hne, by decide +kernel⟩

/-- The gas rewards that a settlement takes out of the pool. -/
def taken (s : Sandbox) (gasReward : TokenAmount) : TokenAmount := min gasReward s.rewardPool

/-- What a settlement burns of them and of what the tickets are worth. -/
def fined (s : Sandbox) (penalty gasReward : TokenAmount) (tickets : Int64) : TokenAmount :=
  min penalty (s.taken gasReward + blockReward tickets)

/-- What a settlement has made of the state when it looks for the miner. -/
def collected (s : Sandbox) (penalty gasReward : TokenAmount) (tickets : Int64) : Sandbox :=
  { s with
    rewardPool := s.rewardPool - s.taken gasReward
    burnt := s.burnt + s.fined penalty gasReward tickets }

section Settlement
variable {miner : Address} {penalty gasReward : TokenAmount} {tickets : Int64}

/-- Tokens that were to be paid have gone, unless there were none. -/
theorem collected_eq_self :
    s.collected penalty gasReward tickets = s ↔
      s.taken gasReward = 0 ∧ s.fined penalty gasReward tickets = 0 := by
  constructor
  · intro h
    have hpool : s.rewardPool - s.taken gasReward = s.rewardPool := congrArg Sandbox.rewardPool h
    have hburnt : s.burnt + s.fined penalty gasReward tickets = s.burnt :=
      congrArg Sandbox.burnt h
    have hheld : s.taken gasReward ≤ s.rewardPool := Nat.min_le_right _ _
    exact ⟨by lia, by lia⟩
  · rintro ⟨htaken, hfined⟩
    simp only [collected, htaken, hfined, Nat.sub_zero, Nat.add_zero]

theorem total_collected :
    (s.collected penalty gasReward tickets).total + s.taken gasReward =
      s.total + s.fined penalty gasReward tickets := by
  have hheld : s.taken gasReward ≤ s.rewardPool := Nat.min_le_right _ _
  change s.balances + (s.burnt + s.fined penalty gasReward tickets) +
    (s.rewardPool - s.taken gasReward) + s.taken gasReward =
      s.balances + s.burnt + s.rewardPool + s.fined penalty gasReward tickets
  lia

/-- Tokens that come and go leave addresses alone. -/
theorem resolve_collected :
    (s.collected penalty gasReward tickets).resolve miner = s.resolve miner := by
  cases miner <;> rfl

theorem locate_collected :
    (s.collected penalty gasReward tickets).locate miner = .error (.idSpaceExhausted miner) ↔
      s.resolve miner = none ∧ (miner.id?.getD s.nextId).toNat = 18446744073709551615 := by
  rw [locate_eq_error, resolve_collected]
  exact and_iff_left rfl

theorem machine_reward (epoch : Int64) :
    machine.reward epoch miner penalty gasReward tickets s =
      ((reward miner penalty gasReward tickets s).1.mapError .ofMachine,
        (reward miner penalty gasReward tickets s).2) := rfl

theorem machine_reward_error {epoch : Int64} {f : Failure}
    (h : machine.reward epoch miner penalty gasReward tickets s = (.error f, s')) :
    ∃ e, f = .ofMachine e ∧ reward miner penalty gasReward tickets s = (.error e, s') := by
  change Op.ofStep (reward miner penalty gasReward tickets) s = _ at h
  exact Op.ofStep_error h

/-- A settlement fails where the miner is looked for, and nowhere else. -/
theorem reward_eq_error (hs : Sound s) {e : Error} :
    reward miner penalty gasReward tickets s = (.error e, s') ↔
      (s.resolve miner = none ∧ (miner.id?.getD s.nextId).toNat = 18446744073709551615) ∧
      e = .idSpaceExhausted miner ∧ s' = s.collected penalty gasReward tickets := by
  have hcollected : Sound (s.collected penalty gasReward tickets) := hs.move _ _
  unfold reward
  simp only
  split
  · rename_i cause hloc
    change (s.collected penalty gasReward tickets).locate miner = _ at hloc
    obtain ⟨_, rfl⟩ := locate_eq_error.mp hloc
    have hlast := locate_collected.mp hloc
    change (Except.error _, s.collected penalty gasReward tickets) = _ ↔ _
    simp only [hlast, true_and, Prod.mk.injEq, Except.error.injEq, eq_comm]
  · rename_i id t hloc
    change (s.collected penalty gasReward tickets).locate miner = _ at hloc
    obtain ⟨a, ha⟩ := found_of_locate hcollected hloc
    simp only [credit_of_found ha, Prod.mk.injEq, reduceCtorEq, false_and, false_iff]
    rintro ⟨hlast, _⟩
    cases hloc.symm.trans (locate_collected.mpr hlast)

end Settlement

/-- In every state of a run a settlement fails just if its miner is not there and no ID is left for
it. It leaves the rewards taken out of the pool and the fine burnt, and nobody paid: whatever the
rewards came to beyond the fine is lost. -/
theorem collected_of_ran {log : List (Application Sandbox)} (hran : machine.Ran {} s log)
    (epoch : Int64) (miner : Address) (penalty gasReward : TokenAmount) (tickets : Int64) :
    ((∃ e s', machine.reward epoch miner penalty gasReward tickets s = (.error e, s')) ↔
      s.resolve miner = none ∧ (miner.id?.getD s.nextId).toNat = 18446744073709551615) ∧
    ∀ e s', machine.reward epoch miner penalty gasReward tickets s = (.error e, s') →
      e = .ofMachine (.idSpaceExhausted miner) ∧ s' = s.collected penalty gasReward tickets ∧
      (s' = s ↔ s.taken gasReward = 0 ∧ s.fined penalty gasReward tickets = 0) ∧
      s'.total + s.taken gasReward = s.total + s.fined penalty gasReward tickets := by
  have hs : Sound s := sound_fresh.edits (edits_of_ran hran)
  refine ⟨⟨?_, fun hlast => ?_⟩, ?_⟩
  · rintro ⟨e, s', h⟩
    obtain ⟨cause, _, hfails⟩ := machine_reward_error h
    exact ((reward_eq_error hs).mp hfails).1
  · have hfails : reward miner penalty gasReward tickets s =
        (.error (.idSpaceExhausted miner), s.collected penalty gasReward tickets) :=
      (reward_eq_error hs).mpr ⟨hlast, rfl, rfl⟩
    refine ⟨.ofMachine (.idSpaceExhausted miner), s.collected penalty gasReward tickets, ?_⟩
    rw [machine_reward, hfails]
    rfl
  · intro e s' h
    obtain ⟨cause, rfl, hfails⟩ := machine_reward_error h
    obtain ⟨_, rfl, rfl⟩ := (reward_eq_error hs).mp hfails
    exact ⟨rfl, rfl, collected_eq_self, total_collected⟩

/-- A payment to oneself that costs twice its gas, so that half of it goes to the pool. -/
def levy : Message :=
  { offering with recipient := .id 5, gasFeeCap := 2 }

/-- The pool has the gas of one message for a miner that no ID is left for. It is empty afterwards,
a fine of ten is burnt, and the rest is nowhere. -/
theorem collected_of_ran_levy : ∃ s s' log, machine.Ran {} s log ∧
    machine.reward 1 (.id 18446744073709551615) 10 293 0 s =
      (.error (.ofMachine (.idSpaceExhausted (.id 18446744073709551615))), s') ∧
    s' ≠ s ∧ s.rewardPool = 293 ∧ s'.rewardPool = 0 ∧ s'.burnt = s.burnt + 10 ∧
    s'.total + 283 = s.total := by
  let s₁ := (machine.call (.vm (.createActor .account (.id 5) 10000 .emptyObject)) {}).2
  let s := (machine.call (.apply 1 (.id 1000) levy 155) s₁).2
  let s' := (reward (.id 18446744073709551615) 10 293 0 s).2
  have hran : ∃ log, machine.Ran {} s log :=
    ⟨_, (Machine.Ran.start.call (.vm (.createActor .account (.id 5) 10000 .emptyObject))).call
      (.apply 1 (.id 1000) levy 155)⟩
  obtain ⟨log, hran⟩ := hran
  have hfull : (reward (.id 18446744073709551615) 10 293 0 s).1 =
      .error (.idSpaceExhausted (.id 18446744073709551615)) := by
    decide +kernel
  have hfails : machine.reward 1 (.id 18446744073709551615) 10 293 0 s =
      (.error (.ofMachine (.idSpaceExhausted (.id 18446744073709551615))), s') := by
    rw [machine_reward, hfull]
    rfl
  have htaken : s.taken 293 = 293 := by decide +kernel
  have hfined : s.fined 10 293 0 = 10 := by decide +kernel
  obtain ⟨_, hcollected, hsame, htotal⟩ :=
    (collected_of_ran hran 1 (.id 18446744073709551615) 10 293 0).2 _ s' hfails
  rw [htaken, hfined] at hsame htotal
  exact ⟨s, s', log, hran, hfails, fun h => absurd (hsame.mp h).1 (by decide),
    by decide +kernel, by decide +kernel, by decide +kernel,
    Nat.add_right_cancel (m := 10) htotal⟩

end Conformance.Sandbox
