import Conformance.Proofs.Sandbox.Progress

namespace Conformance.Sandbox

open Machine (Error Application)

/-- Where a message that is not rejected moves tokens, by its exit code: its sender, the actor `a`
at `id`, uses up a nonce, pays a fee for gas, and on success the value to the recipient, which may
be the sender itself. -/
structure Moved (s : Sandbox) (m : Message) (id : UInt64) (a : Actor) (code : ExitCode)
    (fee : TokenAmount) (s' : Sandbox) : Prop where
  sender : ∃ b, s'.actors.get? id = some b ∧ b.code = a.code ∧ b.head = a.head ∧
    b.nonce.toNat = a.nonce.toNat + 1 ∧
    b.balance + fee + (if code = .ok then m.value else 0) =
      a.balance + if code = .ok ∧ s'.resolve m.recipient = some id then m.value else 0
  recipient : code = .ok → ∃ r, s'.resolve m.recipient = some r ∧
    (r ≠ id → ∃ c, (s.actor? m.recipient).getD (.account 0) = c ∧
      s'.actors.get? r = some { c with balance := c.balance + m.value })
  others : ∀ i, i ≠ id → ¬ (code = .ok ∧ s'.resolve m.recipient = some i) →
    s'.actors.get? i = s.actors.get? i
  created : code = .ok → s.resolve m.recipient = none →
    s'.addresses = s.addresses.insert m.recipient s.nextId ∧
      s'.nextId.toNat = s.nextId.toNat + 1
  known : ¬ (code = .ok ∧ s.resolve m.recipient = none) →
    s'.addresses = s.addresses ∧ s'.nextId = s.nextId

variable {s s' : Sandbox} {id : UInt64} {a : Actor} {m : Message}

section Moved
variable {nonce : UInt64} {code : ExitCode} {fee : TokenAmount} {s₁ : Sandbox} {e : Actor}
  (ha : s.actors.get? id = some a) (hnonce : nonce.toNat = a.nonce.toNat + 1)

include hnonce in
/-- A message that stops costs a nonce and the fee. -/
theorem moved_of_stopped (hcode : code ≠ .ok)
    (he : (s.putActor id { a with nonce }).actors.get? id = some e) (hle : fee ≤ e.balance) :
    Moved s m id a code fee
      ((s.putActor id { a with nonce }).putActor id { e with balance := e.balance - fee }) := by
  rw [get?_putActor_self] at he
  obtain rfl := Option.some.inj he
  constructor
  case sender =>
    refine ⟨_, get?_putActor_self _ _ _, rfl, rfl, hnonce, ?_⟩
    simp only [hcode, false_and, ↓reduceIte]
    exact Nat.sub_add_cancel hle
  case recipient => exact fun hok => absurd hok hcode
  case others =>
    intro i hi _
    rw [get?_putActor_ne _ _ hi, get?_putActor_ne _ _ hi]
  case created => exact fun hok => absurd hok hcode
  case known => exact fun _ => ⟨rfl, rfl⟩

include ha hnonce in
/-- A message that is carried out moves its value besides. -/
theorem moved_of_sent (hs : Sound s) {t : Sandbox} {r : UInt64}
    (hloc : (s.putActor id { a with nonce }).locate m.recipient = .ok (r, t))
    (hkind : s.resolve m.recipient = none → m.recipient.isId = false)
    (ht : t.transfer id r m.value = (.ok (), s₁))
    (he : s₁.actors.get? id = some e) (hle : fee ≤ e.balance) :
    Moved s m id a .ok fee (s₁.putActor id { e with balance := e.balance - fee }) := by
  have hbefore := resolve_putActor (b := { a with nonce }) ha m.recipient
  have hafter : (s₁.putActor id { e with balance := e.balance - fee }).resolve m.recipient =
      some r := by
    rw [resolve_putActor he, resolve_transfer ht, resolve_locate hloc]
  obtain ⟨hcreated, hknown⟩ := recorded_locate hloc (hbefore ▸ hkind)
  rw [hbefore] at hcreated hknown
  obtain ⟨haddresses, hnext⟩ := recorded_transfer ht
  have htransferred := transferred_of_ok ht
  constructor
  case sender =>
    -- The sender is still there when the recipient is located.
    have hused : Sound (s.putActor id { a with nonce }) := hs.put ha rfl
    have hsender := get?_locate hused hloc (get?_putActor_self s id { a with nonce })
    obtain ⟨b, hb, balance, hpaid, hbalance⟩ := htransferred.paid
    obtain rfl := Option.some.inj (hsender.symm.trans hb)
    obtain rfl := Option.some.inj (he.symm.trans hpaid)
    refine ⟨_, get?_putActor_self _ _ _, rfl, rfl, hnonce, ?_⟩
    simp only [hafter, Option.some.injEq, true_and, ↓reduceIte]
    dsimp only at hle hbalance ⊢
    lia
  case recipient =>
    refine fun _ => ⟨r, hafter, fun hother => ?_⟩
    obtain ⟨c, hc, hcredited⟩ := htransferred.credited hother
    have hne : s.resolve m.recipient ≠ some id := by
      intro hid
      rw [← hbefore] at hid
      simp only [locate, hid, Except.ok.injEq, Prod.mk.injEq] at hloc
      exact hother hloc.1.symm
    refine ⟨c, ?_, ?_⟩
    · rw [← actor_locate hloc hc, actor?_putActor ha hne]
    · rw [get?_putActor_ne _ _ hother, hcredited]
  case others =>
    intro i hi hnot
    have hne : i ≠ r := fun heq => hnot ⟨rfl, heq ▸ hafter⟩
    rw [get?_putActor_ne _ _ hi, htransferred.others i hi hne, others_locate hloc hne,
      get?_putActor_ne _ _ hi]
  case created =>
    intro _ hnone
    obtain ⟨hkeys, hnextId⟩ := hcreated hnone
    exact ⟨haddresses.trans hkeys, hnext ▸ hnextId⟩
  case known =>
    intro hnot
    obtain ⟨hkeys, hnextId⟩ := hknown (fun hnone => hnot ⟨rfl, hnone⟩)
    exact ⟨haddresses.trans hkeys, hnext.trans hnextId⟩

end Moved

/-- What a message does that nothing stands against: it is answered with the first exit code that
applies, pays the price of the gas it is charged for, and leaves the rest alone. -/
structure Applied (s : Sandbox) (m : Message) (inclusion : Nat) (id : UInt64) (a : Actor)
    (gas : Nat) (o : Outcome) (s' : Sandbox) : Prop where
  exitCode : o.receipt.exitCode = s.verdict m (a.balance - m.deposit) inclusion
  returnValue : o.receipt.returnValue = []
  gasUsed : o.receipt.gasUsed.toInt = gas
  charged : gas = s.gasFor m inclusion o.receipt.exitCode
  least : inclusion ≤ gas
  most : gas ≤ m.gasLimit.toInt
  penalty : o.penalty = 0
  price : gas * min 1 m.gasFeeCap + o.reward = gas * m.price
  burnt : s'.burnt = s.burnt + gas * min 1 m.gasFeeCap
  rewardPool : s'.rewardPool = s.rewardPool + o.reward
  moved : Moved s m id a o.receipt.exitCode (gas * m.price) s'
  store : s'.store = s.store
  lastCron : s'.lastCron = s.lastCron

theorem applied_of_run (hs : Sound s) (ha : s.actors.get? id = some a) {nonce : UInt64}
    (hnonce : nonce.toNat = a.nonce.toNat + 1) {inclusion : Int64} {g : Nat}
    (hinc : inclusion.toInt = g) (hlimit : inclusion ≤ m.gasLimit) {o : Outcome}
    (h : (s.putActor id { a with nonce }).run id m (a.balance - m.deposit) inclusion =
      (.ok o, s')) :
    ∃ gas, Applied s m g id a gas o s' := by
  have hbefore := resolve_putActor (b := { a with nonce }) ha m.recipient
  obtain ⟨_, used, s₁, hcourse, hused, hleast, hmost, hsettle⟩ := run_ok hinc hlimit h
  rw [verdict_congr hbefore] at hcourse hused hsettle
  rw [gasFor_congr hbefore] at hused
  obtain ⟨gas, hgas⟩ := Int.eq_ofNat_of_zero_le (Int.le_trans (Int.natCast_nonneg g) hleast)
  obtain ⟨e, he, hle, rfl, rfl⟩ := settle_ok hgas hsettle
  have hframe := hcourse.frame
  have hmoved : Moved s m id a (s.verdict m (a.balance - m.deposit) g) (gas * m.price)
      (s₁.putActor id { e with balance := e.balance - gas * m.price }) := by
    generalize s.verdict m (a.balance - m.deposit) g = code at hcourse
    cases hcourse with
    | stopped hcode _ => exact moved_of_stopped hnonce hcode he hle
    | sent hkind hloc _ ht => exact moved_of_sent ha hnonce hs hloc (hbefore ▸ hkind) ht he hle
  refine ⟨gas, rfl, rfl, hgas, hgas ▸ hused, ?_, ?_, rfl, ?_, ?_, ?_, ?_, ?_, ?_⟩
  · rw [hgas] at hleast
    exact Int.ofNat_le.mp hleast
  · rw [← hgas]
    exact Int64.le_iff_toInt_le.mp hmost
  · rw [← burnRate_add_tipRate, Nat.mul_add]
    rfl
  · exact congrArg (·.burnt + gas * burnRate m) hframe
  · exact congrArg (·.rewardPool + gas * tipRate m) hframe
  · obtain ⟨hsender, hrecipient, hothers, hcreated, hknown⟩ := hmoved
    exact ⟨hsender, hrecipient, hothers, hcreated, hknown⟩
  · exact (congrArg Sandbox.store hframe :)
  · exact (congrArg Sandbox.lastCron hframe :)

/-- A message that comes to an outcome with nothing against it is applied for its sender. -/
theorem applied_of_apply (hs : Sound s) {length : Nat} (hlen : length ≤ maxLength)
    (hnone : s.rejection? m (38 + length) = none) {o : Outcome}
    (h : apply m length s = (.ok o, s')) :
    ∃ id a gas, s.resolve m.sender = some id ∧ s.actors.get? id = some a ∧
      Applied s m (38 + length) id a gas o s' := by
  obtain ⟨inclusion, id, a, hinc, hlimit, hsender, ha, _, ⟨_, hlast⟩ | ⟨nonce, hnonce, hrun⟩⟩ :=
    apply_of_admitted hs hlen hnone
  · cases hlast.symm.trans h
  · obtain ⟨gas, happlied⟩ := applied_of_run hs ha hnonce hinc hlimit (hrun.symm.trans h)
    exact ⟨id, a, gas, hsender, ha, happlied⟩

/-- Nonces and IDs only go up, so that none was the last where a message is applied. -/
theorem Applied.not_exhausted {g gas : Nat} {o : Outcome} (h : Applied s m g id a gas o s') :
    a.nonce.toNat ≠ maxNonces ∧
      ¬ (s.verdict m (a.balance - m.deposit) g = .ok ∧ Crowded s m) := by
  constructor
  · intro hlast
    obtain ⟨b, _, _, _, hnonce, _⟩ := h.moved.sender
    have hmax := b.nonce.toNat_lt
    rw [hnonce, hlast] at hmax
    exact absurd hmax (by decide)
  · rintro ⟨hverdict, hnone, hlast⟩
    have hnext := (h.moved.created (h.exitCode.trans hverdict) hnone).2
    have hmax := s'.nextId.toNat_lt
    rw [hnext, hlast] at hmax
    exact absurd hmax (by decide)

/-- Epoch and miner play no part in the application of a message. -/
theorem machine_apply (epoch : Int64) (miner : Address) (m : Message) (length : Nat) (s : Sandbox) :
    machine.apply epoch miner m length s =
      ((apply m length s).1.mapError .ofMachine, (apply m length s).2) := rfl

theorem machine_apply_error {epoch : Int64} {miner : Address} {length : Nat} {f : Failure}
    (h : machine.apply epoch miner m length s = (.error f, s')) :
    ∃ e, f = .ofMachine e ∧ apply m length s = (.error e, s') := by
  change Op.ofStep (apply m length) s = _ at h
  exact Op.ofStep_error h

/-- In every state of a run a message is either rejected for the first reason there is, which costs
its miner the inclusion and nobody else anything, or has none against it and is applied. Then it can
fail for want of a nonce or of an ID for its recipient, and for nothing else. -/
theorem applied_of_ran {log : List (Application Sandbox)} (hran : machine.Ran {} s log)
    {length : Nat} (hlen : length ≤ 2 ^ 62) (epoch : Int64) (miner : Address) (m : Message) :
    (∀ code, s.rejection? m (38 + length) = some code →
      machine.apply epoch miner m length s =
        (.ok { receipt := { exitCode := code, returnValue := [], gasUsed := 0 },
               penalty := 38 + length, reward := 0 }, s)) ∧
    (s.rejection? m (38 + length) = none →
      ∃ id a, s.resolve m.sender = some id ∧ s.actors.get? id = some a ∧
        (∀ o s', machine.apply epoch miner m length s = (.ok o, s') →
          ∃ gas, Applied s m (38 + length) id a gas o s') ∧
        ((machine.apply epoch miner m length s).1.isOk = false ↔
          a.nonce.toNat = maxNonces ∨
            s.verdict m (a.balance - m.deposit) (38 + length) = .ok ∧ Crowded s m)) := by
  have hs : Sound s := sound_fresh.edits (edits_of_ran hran)
  constructor
  · intro code hreason
    rw [machine_apply, apply_of_rejected hs hlen hreason]
    rfl
  · intro hnone
    obtain ⟨inclusion, id, a, hinc, hlimit, hsender, ha, _, hrun⟩ :=
      apply_of_admitted hs hlen hnone
    have happlied : ∀ o s', machine.apply epoch miner m length s = (.ok o, s') →
        ∃ gas, Applied s m (38 + length) id a gas o s' := by
      intro o s' h
      rcases hrun with ⟨_, hrun⟩ | ⟨nonce, hnonce, hrun⟩
      · cases hrun.symm.trans (Op.ofStep_ok h)
      · exact applied_of_run hs ha hnonce hinc hlimit (hrun.symm.trans (Op.ofStep_ok h))
    refine ⟨id, a, hsender, ha, happlied, ?_⟩
    rcases hout : apply m length s with ⟨e | o, s'⟩
    · obtain ⟨_, b, hb, hexhausted⟩ := crowded_of_apply hs hlen hout
      obtain rfl := Option.some.inj ((actor?_of_resolve hsender ha).symm.trans hb)
      have hfails : machine.apply epoch miner m length s = (.error (.ofMachine e), s') := by
        rw [machine_apply, hout]
        rfl
      rw [hfails]
      exact iff_of_true rfl hexhausted
    · have hdone : machine.apply epoch miner m length s = (.ok o, s') := by
        rw [machine_apply, hout]
        rfl
      obtain ⟨gas, h⟩ := happlied o s' hdone
      rw [hdone]
      exact iff_of_false (by simp [Except.isOk, Except.toBool]) (not_or.mpr h.not_exhausted)

/-- An actor pays itself, by its ID and under its key. -/
def roundabout : Message where
  recipient := .bls [7]
  sender := .id 100
  nonce := 0
  value := 5
  method := Message.send
  params := []
  gasFeeCap := 3
  gasPremium := 1
  gasLimit := 2000

/-- The payment to itself costs two for each gas, one of them burnt; once more it is too late. -/
theorem applied_of_ran_roundabout : ∃ s s' id a gas, machine.Ran {} s [] ∧
    Applied s roundabout 100 id a gas ⟨⟨.ok, [], 200⟩, 0, 200⟩ s' ∧
    (s'.actor? (.id 100)).map Actor.balance = some 9600 ∧
    machine.apply 1 (.id 1000) roundabout 62 s' =
      (.ok ⟨⟨.senderStateInvalid, [], 0⟩, 100, 0⟩, s') := by
  let s := (machine.call (.vm (.createActor .account (.bls [7]) 10000 .emptyObject)) {}).2
  let s' := (machine.call (.apply 1 (.id 1000) roundabout 62) s).2
  have hran : machine.Ran {} s [] :=
    Machine.Ran.start.call (.vm (.createActor .account (.bls [7]) 10000 .emptyObject))
  have hran' := hran.call (.apply 1 (.id 1000) roundabout 62)
  have hlen : 62 ≤ 2 ^ 62 := by decide
  have hdone : machine.apply 1 (.id 1000) roundabout 62 s =
      (.ok ⟨⟨.ok, [], 200⟩, 0, 200⟩, s') := rfl
  obtain ⟨id, a, _, _, happlied, _⟩ :=
    (applied_of_ran hran hlen 1 (.id 1000) roundabout).2 (by decide +kernel)
  obtain ⟨gas, happlied⟩ := happlied _ _ hdone
  exact ⟨s, s', id, a, gas, hran, happlied, by decide +kernel,
    (applied_of_ran hran' hlen 1 (.id 1000) roundabout).1 .senderStateInvalid
      (by decide +kernel)⟩

end Conformance.Sandbox
