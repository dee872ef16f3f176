import Conformance.Sandbox.Apply

namespace Conformance

theorem Word.next?_eq_some {n after : UInt64} (h : Word.next? n = some after) :
    after.toNat = n.toNat + 1 := by
  unfold Word.next? at h
  split at h
  · cases h
  · simp only [Option.some.injEq] at h
    subst h
    have := n.toNat_lt
    rw [UInt64.toNat_add, UInt64.toNat_one]
    omega

theorem Address.id?_of_key {a : Address} (h : a.isId = false) : a.id? = none := by
  cases a with
  | id n => cases h
  | _ => rfl

namespace Op
variable {σ α : Type} {s s' : σ} {x : α}

theorem ofView_ok {view : σ → Except Machine.Error α} (h : ofView view s = (.ok x, s')) :
    view s = .ok x ∧ s' = s := by
  obtain ⟨hx, hs⟩ := Prod.mk.inj h
  cases hv : view s with
  | error e => simp [hv] at hx
  | ok y => exact ⟨by simpa [hv] using hx, hs.symm⟩

theorem ofUpdate_ok {update : σ → Except Machine.Error (α × σ)}
    (h : ofUpdate update s = (.ok x, s')) : update s = .ok (x, s') := by
  unfold ofUpdate at h
  split at h
  · rename_i y t hu
    obtain ⟨hx, rfl⟩ := Prod.mk.inj h
    rw [hu, Except.ok.inj hx]
  · exact absurd (Prod.mk.inj h).1 (by simp)

theorem ofStep_ok {step : σ → Except Machine.Error α × σ} (h : ofStep step s = (.ok x, s')) :
    step s = (.ok x, s') := by
  obtain ⟨hx, rfl⟩ := Prod.mk.inj h
  rcases hr : step s with ⟨_ | y, t⟩
  · simp [hr] at hx
  · simp only [hr, mapError_ok, Except.ok.injEq] at hx
    rw [hx]

theorem ofStep_error {step : σ → Except Machine.Error α × σ} {f : Failure}
    (h : ofStep step s = (.error f, s')) : ∃ e, f = .ofMachine e ∧ step s = (.error e, s') := by
  obtain ⟨hf, rfl⟩ := Prod.mk.inj h
  rcases hr : step s with ⟨e | _, t⟩
  · simp only [hr, mapError_error, Except.error.injEq] at hf
    exact ⟨e, hf.symm, rfl⟩
  · simp [hr] at hf

end Op

namespace Sandbox

open Machine (Error)

variable {s s' : Sandbox} {id : UInt64} {a : Actor}

theorem actorAt_ok (h : s.actorAt id = .ok a) : s.actors.get? id = some a := by
  unfold actorAt at h
  split at h
  · rename_i b hb
    rw [hb, Except.ok.inj h]
  · cases h

theorem actor?_of_resolve {address : Address} (hid : s.resolve address = some id)
    (ha : s.actors.get? id = some a) : s.actor? address = some a := by
  rw [actor?, hid, Option.bind_some, ha]

theorem get?_putActor (s : Sandbox) (id i : UInt64) (b : Actor) :
    (s.putActor id b).actors.get? i = if id = i then some b else s.actors.get? i :=
  SortedMap.get?_insert _ _ _ _

theorem get?_putActor_self (s : Sandbox) (id : UInt64) (b : Actor) :
    (s.putActor id b).actors.get? id = some b := by
  rw [get?_putActor, if_pos rfl]

theorem get?_putActor_ne (s : Sandbox) {id i : UInt64} (b : Actor) (h : i ≠ id) :
    (s.putActor id b).actors.get? i = s.actors.get? i := by
  rw [get?_putActor, if_neg h.symm]

theorem credit_ok {amount : TokenAmount} (h : s.credit id amount = .ok s') :
    ∃ a, s.actors.get? id = some a ∧
      s' = s.putActor id { a with balance := a.balance + amount } := by
  unfold credit at h
  cases ha : s.actorAt id with
  | error e => simp [ha, bind, Except.bind] at h
  | ok a =>
    simp only [ha, bind, Except.bind, pure, Except.pure, Except.ok.injEq] at h
    exact ⟨a, actorAt_ok ha, h.symm⟩

theorem debit_ok {amount : TokenAmount} {uncovered : Error}
    (h : s.debit id amount uncovered = .ok s') :
    ∃ a, s.actors.get? id = some a ∧ amount ≤ a.balance ∧
      s' = s.putActor id { a with balance := a.balance - amount } := by
  unfold debit at h
  cases ha : s.actorAt id with
  | error e => simp [ha, bind, Except.bind] at h
  | ok a =>
    simp only [ha, bind, Except.bind, TokenAmount.sub?] at h
    by_cases hle : amount ≤ a.balance
    · simp only [hle, ↓reduceIte, pure, Except.pure, Except.ok.injEq] at h
      exact ⟨a, actorAt_ok ha, hle, h.symm⟩
    · simp [hle] at h

/-- An actor comes in at the ID of its address or at the next ID, and only where none was. -/
theorem insertActor_ok {address : Address} (h : s.insertActor address a = .ok (id, s')) :
    s.resolve address = none ∧ id = address.id?.getD s.nextId ∧
      ∃ after : UInt64, after.toNat = id.toNat + 1 ∧ s' = { s with
        addresses := if address.isId then s.addresses else s.addresses.insert address id
        nextId := if s.nextId ≤ id then after else s.nextId
        actors := s.actors.insert id a } := by
  unfold insertActor at h
  split at h
  · cases h
  · rename_i hnone
    simp only [Bool.not_eq_true, Option.isSome_eq_false_iff, Option.isNone_iff_eq_none] at hnone
    simp only at h
    split at h
    · cases h
    · rename_i after hafter
      simp only [Except.ok.injEq, Prod.mk.injEq] at h
      obtain ⟨rfl, rfl⟩ := h
      exact ⟨hnone, rfl, after, Word.next?_eq_some hafter, rfl⟩

theorem actors_of_insertActor {address : Address} (h : s.insertActor address a = .ok (id, s')) :
    s'.actors = s.actors.insert id a := by
  obtain ⟨_, _, after, _, rfl⟩ := insertActor_ok h
  rfl

theorem store_of_insertActor {address : Address} (h : s.insertActor address a = .ok (id, s')) :
    s'.store = s.store := by
  obtain ⟨_, _, after, _, rfl⟩ := insertActor_ok h
  rfl

theorem nextId_of_insertActor {address : Address} (h : s.insertActor address a = .ok (id, s')) :
    s'.nextId.toNat = max s.nextId.toNat (id.toNat + 1) := by
  obtain ⟨_, _, after, hafter, rfl⟩ := insertActor_ok h
  show (if s.nextId ≤ id then after else s.nextId).toNat = _
  split
  · rename_i hle
    rw [UInt64.le_iff_toNat_le] at hle
    omega
  · rename_i hgt
    rw [UInt64.le_iff_toNat_le] at hgt
    omega

/-- A key is only ever recorded for the next ID. -/
theorem key_of_insertActor {address k : Address} {i : UInt64}
    (h : s.insertActor address a = .ok (id, s')) (hk : s'.addresses.get? k = some i) :
    (address.isId = false ∧ k = address ∧ i = s.nextId ∧ i = id) ∨
      s.addresses.get? k = some i := by
  obtain ⟨_, hid, after, _, rfl⟩ := insertActor_ok h
  change (if address.isId then s.addresses else s.addresses.insert address id).get? k = some i at hk
  split at hk
  · exact .inr hk
  · rename_i hkind
    rw [SortedMap.get?_insert] at hk
    split at hk
    · rename_i heq
      obtain rfl := Option.some.inj hk
      have hkey : address.isId = false := by simpa using hkind
      have hnext : id = s.nextId := by rw [hid, Address.id?_of_key hkey, Option.getD_none]
      exact .inl ⟨hkey, heq.symm, hnext, rfl⟩
    · exact .inr hk

theorem setActorState_ok {address : Address} {balance : TokenAmount} {head : Cid}
    (h : s.setActorState address balance head = .ok (a, s')) :
    ∃ id b, s.resolve address = some id ∧ s.actors.get? id = some b ∧
      a = { b with balance, head } ∧ s' = s.putActor id a := by
  unfold setActorState at h
  split at h
  · cases h
  · rename_i id hid
    cases hb : s.actorAt id with
    | error e => simp [hb, bind, Except.bind] at h
    | ok b =>
      simp only [hb, bind, Except.bind, pure, Except.pure, Except.ok.injEq, Prod.mk.injEq] at h
      obtain ⟨rfl, rfl⟩ := h
      exact ⟨id, b, hid, actorAt_ok hb, rfl, rfl⟩

theorem createActor_ok {code : Cid} {address : Address} {balance : TokenAmount} {head : Cid}
    {r : Actor × Address} (h : s.createActor code address balance head = .ok (r, s')) :
    code = .account ∧ r.1 = { code, head, nonce := 0, balance } ∧
      ∃ id, r.2 = .id id ∧ s.insertActor address r.1 = .ok (id, s') := by
  unfold createActor at h
  split at h
  · cases h
  · rename_i hcode
    cases hins : s.insertActor address { code, head, nonce := 0, balance } with
    | error e => simp [hins, bind, Except.bind] at h
    | ok q =>
      simp only [hins, bind, Except.bind, pure, Except.pure, Except.ok.injEq, Prod.mk.injEq] at h
      obtain ⟨rfl, rfl⟩ := h
      exact ⟨by simpa using hcode, rfl, q.1, rfl, hins⟩

/-- A transfer stops before the debit, between debit and credit, or after both. -/
theorem transfer_cases (s : Sandbox) (sender receiver : UInt64) (value : TokenAmount) :
    (∃ e, s.transfer sender receiver value = (.error e, s)) ∨
    ∃ s₁, s.debit sender value .valueUncovered = .ok s₁ ∧
      ((∃ e, s.transfer sender receiver value = (.error e, s₁)) ∨
        ∃ s₂, s₁.credit receiver value = .ok s₂ ∧
          s.transfer sender receiver value = (.ok (), s₂)) := by
  unfold transfer
  cases hd : s.debit sender value .valueUncovered with
  | error e => exact .inl ⟨e, rfl⟩
  | ok s₁ =>
    refine .inr ⟨s₁, rfl, ?_⟩
    cases hc : s₁.credit receiver value with
    | error e => exact .inl ⟨e, by simp only [hc]⟩
    | ok s₂ => exact .inr ⟨s₂, rfl, by simp only [hc]⟩

/-- A transfer that succeeds is a debit and a credit of the same value. -/
theorem transfer_ok {sender receiver : UInt64} {value : TokenAmount}
    (h : s.transfer sender receiver value = (.ok (), s')) :
    ∃ a c, s.actors.get? sender = some a ∧ value ≤ a.balance ∧
      (s.putActor sender { a with balance := a.balance - value }).actors.get? receiver = some c ∧
      s' = (s.putActor sender { a with balance := a.balance - value }).putActor receiver
        { c with balance := c.balance + value } := by
  rcases transfer_cases s sender receiver value with
    ⟨e, he⟩ | ⟨s₁, hd, ⟨e, he⟩ | ⟨s₂, hc, he⟩⟩ <;> rw [he] at h
  · cases h
  · cases h
  · cases h
    obtain ⟨a, ha, hle, rfl⟩ := debit_ok hd
    obtain ⟨c, hfound, rfl⟩ := credit_ok hc
    exact ⟨a, c, ha, hle, hfound, rfl⟩

theorem locate_cases {address : Address} (h : s.locate address = .ok (id, s')) :
    (s' = s ∧ s.resolve address = some id) ∨
      s.insertActor address (.account 0) = .ok (id, s') := by
  unfold locate at h
  split at h
  · rename_i i hi
    simp only [Except.ok.injEq, Prod.mk.injEq] at h
    obtain ⟨rfl, rfl⟩ := h
    exact .inl ⟨rfl, hi⟩
  · exact .inr h

/-- A message stops with an exit code before anything is touched, fails to find or create its
receiver, or transfers to it. -/
theorem execute_cases (s : Sandbox) (sender : UInt64) (m : Message) (available : TokenAmount)
    (gasLeft : Int64) :
    (∃ code gas, (gas = sendGas ∨ gas = gasLeft ∧ gasLeft < sendGas + createGas) ∧
      s.execute sender m available gasLeft = (.ok (code, gas), s)) ∨
    (∃ e, s.locate m.recipient = .error e ∧
      s.execute sender m available gasLeft = (.error e, s)) ∨
    ∃ s₁ receiver gas, s.locate m.recipient = .ok (receiver, s₁) ∧
      (gas = sendGas ∨ gas = sendGas + createGas) ∧
      s.execute sender m available gasLeft =
        ((s₁.transfer sender receiver m.value).1.map (fun _ => (.ok, gas)),
          (s₁.transfer sender receiver m.value).2) := by
  unfold execute
  split
  · exact .inl ⟨_, _, .inl rfl, rfl⟩
  · split
    · exact .inl ⟨_, _, .inl rfl, rfl⟩
    · split
      · rename_i receiver hr
        split
        · rename_i hlt
          exact .inl ⟨_, _, .inr ⟨rfl, Int64.lt_trans hlt (by decide)⟩, rfl⟩
        · exact .inr (.inr ⟨s, receiver, sendGas, by simp [locate, hr], .inl rfl, rfl⟩)
      · rename_i hr
        split
        · exact .inl ⟨_, _, .inl rfl, rfl⟩
        · split
          · rename_i hlt
            exact .inl ⟨_, _, .inr ⟨rfl, hlt⟩, rfl⟩
          · split
            · rename_i e hins
              exact .inr (.inl ⟨e, by simp [locate, hr, hins], rfl⟩)
            · rename_i receiver s₁ hins
              exact .inr (.inr ⟨s₁, receiver, sendGas + createGas, by simp [locate, hr, hins],
                .inr rfl, rfl⟩)

/-- An admitted message is executed with the gas that its inclusion leaves, and paid for where the
execution comes to an exit code. -/
theorem run_cases (s : Sandbox) (sender : UInt64) (m : Message) (available : TokenAmount)
    (inclusion : Int64) :
    (∃ e, s.run sender m available inclusion = (.error e, s)) ∨
    ∃ gasLeft, Word.sub? m.gasLimit inclusion = some gasLeft ∧
      ((∃ e, s.run sender m available inclusion =
        (.error e, (s.execute sender m available gasLeft).2)) ∨
      ∃ code gas s₁ total, s.execute sender m available gasLeft = (.ok (code, gas), s₁) ∧
        Word.add? inclusion gas = some total ∧
        s.run sender m available inclusion = s₁.settle sender m code (min total m.gasLimit)) := by
  unfold run
  split
  · exact .inl ⟨_, rfl⟩
  · rename_i gasLeft hleft
    refine .inr ⟨gasLeft, hleft, ?_⟩
    rcases hex : s.execute sender m available gasLeft with ⟨_ | ⟨code, gas⟩, s₁⟩
    · exact .inl ⟨_, rfl⟩
    · simp only
      split
      · exact .inl ⟨_, rfl⟩
      · rename_i total htotal
        exact .inr ⟨code, gas, s₁, total, rfl, htotal, rfl⟩

theorem settle_cases (s : Sandbox) (sender : UInt64) (m : Message) (code : ExitCode)
    (gasUsed : Int64) :
    (∃ e, s.settle sender m code gasUsed = (.error e, s)) ∨
    ∃ s₁ burn reward o, s.debit sender (burn + reward) .depositUncovered = .ok s₁ ∧
      (o.receipt.gasUsed = gasUsed ∧ o.reward = reward) ∧ s.settle sender m code gasUsed =
        (.ok o, { s₁ with burnt := s₁.burnt + burn, rewardPool := s₁.rewardPool + reward }) := by
  unfold settle
  simp only
  split
  · exact .inl ⟨_, rfl⟩
  · rename_i s₁ hd
    refine .inr ⟨s₁, _, _, _, hd, ?_, rfl⟩
    exact ⟨rfl, rfl⟩

theorem admission_ok {m : Message} {inclusion : Int64} {sender : UInt64} {available : TokenAmount}
    (h : s.admission m inclusion = .ok (.admitted sender a available)) :
    s.resolve m.sender = some sender ∧ s.actors.get? sender = some a ∧ a.code = .account ∧
      a.nonce = m.nonce ∧ inclusion ≤ m.gasLimit ∧
      available + m.gasFeeCap * Word.bits m.gasLimit = a.balance := by
  unfold admission at h
  split at h
  · cases h
  · rename_i hgas
    split at h
    · cases h
    · rename_i id hid
      cases ha : s.actorAt id with
      | error e => simp [ha] at h
      | ok b =>
        simp only [ha] at h
        split at h
        · cases h
        · rename_i hcode
          split at h
          · cases h
          · rename_i hnonce
            unfold TokenAmount.sub? at h
            split at h
            · cases h
            · rename_i rest hrest
              simp only [Except.ok.injEq, Admission.admitted.injEq] at h
              obtain ⟨rfl, rfl, rfl⟩ := h
              split at hrest
              · rename_i hle
                simp only [Option.some.injEq] at hrest
                exact ⟨hid, actorAt_ok ha, by simpa using hcode, by simpa using hnonce,
                  Int64.not_lt.mp hgas, hrest ▸ Nat.sub_add_cancel hle⟩
              · cases hrest

/-- A message is rejected or refused without a trace, or uses up its nonce and runs. -/
theorem apply_cases (m : Message) (chainLength : Nat) (s : Sandbox) :
    (∃ r, (∀ o, r = .ok o → o.receipt.gasUsed = 0 ∧ o.reward = 0) ∧
      apply m chainLength s = (r, s)) ∨
    ∃ inclusion sender actor available nonce, inclusionGas? chainLength = some inclusion ∧
      s.admission m inclusion = .ok (.admitted sender actor available) ∧
      Word.next? actor.nonce = some nonce ∧
      apply m chainLength s =
        (s.putActor sender { actor with nonce }).run sender m available inclusion := by
  have hrefused : ∀ e : Error, ∀ o : Outcome, Except.error e = .ok o →
      o.receipt.gasUsed = 0 ∧ o.reward = 0 := fun _ _ h => by cases h
  unfold apply
  split
  · exact .inl ⟨_, hrefused _, rfl⟩
  · rename_i inclusion hinc
    split
    · exact .inl ⟨_, hrefused _, rfl⟩
    · exact .inl ⟨_, fun o h => Except.ok.inj h ▸ ⟨rfl, rfl⟩, rfl⟩
    · rename_i sender actor available hadm
      split
      · exact .inl ⟨_, hrefused _, rfl⟩
      · rename_i nonce hnonce
        exact .inr ⟨inclusion, sender, actor, available, nonce, hinc, hadm, hnonce, rfl⟩

/-- Pool and fines are settled before the miner is looked for; it is paid last. -/
theorem reward_cases (miner : Address) (penalty gasReward : TokenAmount) (tickets : Int64)
    (s : Sandbox) :
    let paid := min gasReward s.rewardPool
    let gross := paid + blockReward tickets
    let fine := min penalty gross
    let s₀ := { s with rewardPool := s.rewardPool - paid, burnt := s.burnt + fine }
    (∃ e, reward miner penalty gasReward tickets s = (.error e, s₀)) ∨
    ∃ id s₁, s₀.locate miner = .ok (id, s₁) ∧
      ((∃ e, reward miner penalty gasReward tickets s = (.error e, s₁)) ∨
        ∃ s₂, s₁.credit id (gross - fine) = .ok s₂ ∧
          reward miner penalty gasReward tickets s = (.ok (), s₂)) := by
  intro paid gross fine s₀
  unfold reward
  simp only
  split
  · exact .inl ⟨_, rfl⟩
  · rename_i id s₁ hloc
    refine .inr ⟨id, s₁, hloc, ?_⟩
    split
    · exact .inl ⟨_, rfl⟩
    · rename_i s₂ hc
      exact .inr ⟨s₂, hc, rfl⟩

end Sandbox
end Conformance
