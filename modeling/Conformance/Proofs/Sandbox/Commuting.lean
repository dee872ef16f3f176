import Conformance.Proofs.Sandbox.Application

namespace Conformance.Sandbox

open Machine (Application)

variable {s s' t t' : Sandbox} {id r : UInt64} {a : Actor} {m : Message}

/-- What an application does to the records that are there, and what it adds to the tokens burnt and
to those held for miners. -/
structure Effect where
  record : UInt64 → Actor → Actor
  burnt : TokenAmount
  held : TokenAmount

namespace Effect
variable {d e : Effect}

/-- The effect of a message that is rejected. -/
def idle : Effect where
  record _ a := a
  burnt := 0
  held := 0

/-- The effect of a message that is applied with some gas: the record of its sender becomes `b`, and
its recipient, if that is another actor, is paid the value if it succeeds. -/
def payment (m : Message) (id r : UInt64) (b : Actor) (gas : Nat) (o : Outcome) : Effect where
  record i a :=
    if i = id then b
    else if o.receipt.exitCode = .ok ∧ i = r then { a with balance := a.balance + m.value }
    else a
  burnt := gas * min 1 m.gasFeeCap
  held := o.reward

/-- An effect takes one state to another. No actor comes or goes. -/
structure Leads (e : Effect) (s s' : Sandbox) : Prop where
  actors : ∀ i, s'.actors.get? i = (s.actors.get? i).map (e.record i)
  frame : s' = { s with
    actors := s'.actors, burnt := s.burnt + e.burnt, rewardPool := s.rewardPool + e.held }

theorem Leads.resolve (h : e.Leads s s') (address : Address) :
    s'.resolve address = s.resolve address := by
  have haddresses : s'.addresses = s.addresses := by rw [h.frame]
  cases address with
  | id n =>
    have hn : s'.actors.contains n = s.actors.contains n := by
      rw [SortedMap.contains, SortedMap.contains, h.actors, Option.isSome_map]
    simp only [Sandbox.resolve, hn]
  | _ => simp only [Sandbox.resolve, haddresses]

/-- A record that an effect does not change is found at the same address. -/
theorem Leads.actor? (h : e.Leads s s') {address : Address}
    (hsame : ∀ i a, s.resolve address = some i → e.record i a = a) :
    s'.actor? address = s.actor? address := by
  rw [Sandbox.actor?, Sandbox.actor?, h.resolve]
  cases hi : s.resolve address with
  | none => rfl
  | some i =>
    have hkept : e.record i = fun a => a := funext fun a => hsame i a hi
    rw [Option.bind_some, Option.bind_some, h.actors, hkept, Option.map_id']

/-- Two effects that commute on every record lead to one state in either order. -/
theorem Leads.diamond {s₁ s₂ : Sandbox} (hd : d.Leads s s₁) (he : e.Leads s₁ t) (he' : e.Leads s s₂)
    (hd' : d.Leads s₂ t') (hcomm : ∀ i a, e.record i (d.record i a) = d.record i (e.record i a)) :
    t = t' := by
  have hactors : t.actors = t'.actors := by
    refine SortedMap.ext_get? fun i => ?_
    rw [he.actors, hd.actors, hd'.actors, he'.actors, Option.map_map, Option.map_map]
    exact congrArg (Option.map · _) (funext (hcomm i))
  rw [he.frame, hd'.frame, hd.frame, he'.frame, hactors]
  simp only [Nat.add_right_comm]

/-- What a message may do to the records it finds: others than its sender's gain something, and only
if they are its recipient's. -/
structure Within (e : Effect) (m : Message) (s : Sandbox) : Prop where
  gains : ∀ i, s.resolve m.sender ≠ some i →
    ∃ v, ∀ a : Actor, e.record i a = { a with balance := a.balance + v }
  others : ∀ i, s.resolve m.sender ≠ some i → s.resolve m.recipient ≠ some i →
    ∀ a, e.record i a = a

theorem within_idle : idle.Within m s where
  gains _ _ := ⟨0, fun _ => rfl⟩
  others _ _ _ _ := rfl

theorem within_payment (hid : s.resolve m.sender = some id) (hr : s.resolve m.recipient = some r)
    (b : Actor) (gas : Nat) (o : Outcome) : (payment m id r b gas o).Within m s := by
  constructor
  case gains =>
    intro i hi
    have hne : i ≠ id := fun heq => hi (heq ▸ hid)
    by_cases hpaid : o.receipt.exitCode = .ok ∧ i = r
    · exact ⟨m.value, fun a => by simp only [payment, if_neg hne, if_pos hpaid]⟩
    · exact ⟨0, fun a => by simp only [payment, if_neg hne, if_neg hpaid]; rfl⟩
  case others =>
    intro i hi hir a
    have hne : i ≠ id := fun heq => hi (heq ▸ hid)
    have hunpaid : ¬ (o.receipt.exitCode = .ok ∧ i = r) := fun hpaid => hir (hpaid.2 ▸ hr)
    simp only [payment, if_neg hne, if_neg hunpaid]

/-- Effects of messages that leave each other's sender alone commute on every record. -/
theorem commute {m₁ m₂ : Message} (hd : d.Within m₁ s) (he : e.Within m₂ s)
    (hsenders : ∀ i, s.resolve m₁.sender = some i → s.resolve m₂.sender ≠ some i)
    (hfirst : ∀ i, s.resolve m₂.sender = some i → s.resolve m₁.recipient ≠ some i)
    (hsecond : ∀ i, s.resolve m₁.sender = some i → s.resolve m₂.recipient ≠ some i)
    (i : UInt64) (a : Actor) : e.record i (d.record i a) = d.record i (e.record i a) := by
  by_cases h₁ : s.resolve m₁.sender = some i
  · rw [he.others i (hsenders i h₁) (hsecond i h₁), he.others i (hsenders i h₁) (hsecond i h₁)]
  by_cases h₂ : s.resolve m₂.sender = some i
  · rw [hd.others i h₁ (hfirst i h₂), hd.others i h₁ (hfirst i h₂)]
  obtain ⟨v, hv⟩ := hd.gains i h₁
  obtain ⟨w, hw⟩ := he.gains i h₂
  rw [hv, hw, hw, hv, Nat.add_right_comm]

end Effect

/-- Two states look alike to a message. -/
structure Alike (m : Message) (s t : Sandbox) : Prop where
  sender : t.resolve m.sender = s.resolve m.sender
  recipient : t.resolve m.recipient = s.resolve m.recipient
  record : t.actor? m.sender = s.actor? m.sender

theorem rejection?_congr (h : Alike m s t) (inclusion : Nat) :
    t.rejection? m inclusion = s.rejection? m inclusion := by
  unfold rejection?
  rw [h.sender, h.record]

/-- What a message reads is not changed by an effect that spares the record of its sender. -/
theorem Effect.Leads.alike {e : Effect} (h : e.Leads s s')
    (hsame : ∀ i a, s.resolve m.sender = some i → e.record i a = a) : Alike m s s' where
  sender := h.resolve m.sender
  recipient := h.resolve m.recipient
  record := h.actor? hsame

section Applied
variable {g gas gas' : Nat} {o o' : Outcome}

/-- The outcome is settled by what a message reads. -/
theorem Applied.outcome_eq (h : Applied s m g id a gas o s') (h' : Applied t m g id a gas' o' t')
    (hr : t.resolve m.recipient = s.resolve m.recipient) : gas' = gas ∧ o' = o := by
  have hcode : o'.receipt.exitCode = o.receipt.exitCode := by
    rw [h'.exitCode, verdict_congr hr, h.exitCode]
  have hgas : gas' = gas := by
    have hcharged := h'.charged
    rw [hcode, gasFor_congr hr, ← h.charged] at hcharged
    exact Int.ofNat.inj hcharged
  subst hgas
  have hused : o'.receipt.gasUsed = o.receipt.gasUsed :=
    Int64.toInt_inj.mp (h'.gasUsed.trans h.gasUsed.symm)
  have hreward : o'.reward = o.reward := Nat.add_left_cancel (h'.price.trans h.price.symm)
  have hvalue : o'.receipt.returnValue = o.receipt.returnValue :=
    h'.returnValue.trans h.returnValue.symm
  have hpenalty : o'.penalty = o.penalty := h'.penalty.trans h.penalty.symm
  obtain ⟨⟨_, _, _⟩, _, _⟩ := o
  obtain ⟨⟨_, _, _⟩, _, _⟩ := o'
  simp_all only [and_self]

/-- So is the record that its sender is left with. -/
theorem Moved.record_eq {code : ExitCode} {fee : TokenAmount} (h : Moved s m id a code fee s')
    (h' : Moved t m id a code fee t') (hr : t'.resolve m.recipient = s'.resolve m.recipient) :
    t'.actors.get? id = s'.actors.get? id := by
  obtain ⟨b, hb, hcode, hhead, hnonce, hbalance⟩ := h.sender
  obtain ⟨b', hb', hcode', hhead', hnonce', hbalance'⟩ := h'.sender
  rw [hr, ← hbalance, Nat.add_right_cancel_iff, Nat.add_right_cancel_iff] at hbalance'
  have hsame : b' = b := by
    obtain ⟨code', head', nonce', balance'⟩ := b'
    obtain rfl : code' = b.code := hcode'.trans hcode.symm
    obtain rfl : head' = b.head := hhead'.trans hhead.symm
    obtain rfl : nonce' = b.nonce := UInt64.toNat_inj.mp (hnonce'.trans hnonce.symm)
    obtain rfl : balance' = b.balance := hbalance'
    rfl
  rw [hb, hb', hsame]

/-- Where the recipient is known, an application is the payment that it is described as. -/
theorem Applied.leads (hs : Sound s) (ha : s.actors.get? id = some a)
    (hr : s.resolve m.recipient = some r) (hr' : s'.resolve m.recipient = some r)
    (h : Applied s m g id a gas o s') {b : Actor} (hb : s'.actors.get? id = some b) :
    (Effect.payment m id r b gas o).Leads s s' := by
  obtain ⟨haddresses, hnext⟩ := h.moved.known (fun hnone => by cases hr.symm.trans hnone.2)
  constructor
  case actors =>
    intro i
    simp only [Effect.payment]
    by_cases hi : i = id
    · subst hi
      rw [hb, ha, Option.map_some, if_pos rfl]
    simp only [if_neg hi]
    by_cases hpaid : o.receipt.exitCode = .ok ∧ i = r
    · obtain ⟨hok, rfl⟩ := hpaid
      obtain ⟨c, hc⟩ := hs.found hr
      obtain ⟨i, hfound, hcredited⟩ := h.moved.recipient hok
      obtain rfl := Option.some.inj (hr'.symm.trans hfound)
      obtain ⟨_, rfl, hcredited⟩ := hcredited hi
      rw [hcredited, actor?_of_resolve hr hc, hc, Option.map_some, if_pos ⟨hok, rfl⟩]
      rfl
    · have hnot : ¬ (o.receipt.exitCode = .ok ∧ s'.resolve m.recipient = some i) := by
        rintro ⟨hok, hi'⟩
        exact hpaid ⟨hok, Option.some.inj (hi'.symm.trans hr')⟩
      simp only [if_neg hpaid, Option.map_id']
      exact h.moved.others i hi hnot
  case frame =>
    obtain ⟨⟩ := s'
    simp only [Effect.payment, ← haddresses, ← hnext, ← h.store, ← h.lastCron, ← h.burnt,
      ← h.rewardPool]

end Applied

section Local
variable {length : Nat} (hs : Sound s) (hlen : length ≤ maxLength)
  (hr : s.resolve m.recipient = some r)
  (hnonce : ∀ a, s.actor? m.sender = some a → a.nonce.toNat ≠ maxNonces)
include hs hlen hr hnonce

/-- A message that there is nothing against is applied if no ID is needed for its recipient. -/
theorem applied_of_known (hnone : s.rejection? m (38 + length) = none) :
    ∃ id a gas o s', s.resolve m.sender = some id ∧ s.actors.get? id = some a ∧
      apply m length s = (.ok o, s') ∧ Applied s m (38 + length) id a gas o s' ∧
      s'.resolve m.recipient = some r := by
  rcases happly : apply m length s with ⟨e | o, s'⟩
  · obtain ⟨_, b, hb, hlast | ⟨_, hcrowded⟩⟩ := crowded_of_apply hs hlen happly
    · exact absurd hlast (hnonce b hb)
    · cases hr.symm.trans hcrowded.1
  · obtain ⟨id, a, gas, hsender, ha, happlied⟩ := applied_of_apply hs hlen hnone happly
    have hedits := edits_apply m length s
    rw [happly] at hedits
    exact ⟨id, a, gas, o, s', hsender, ha, rfl, happlied, hedits.grows.resolves _ _ hr⟩

/-- A message whose recipient is known has one outcome and one effect wherever it finds the same. -/
theorem effect_of_message : ∃ (o : Outcome) (e : Effect), e.Within m s ∧
    ∀ t, Sound t → Alike m s t → ∃ t', apply m length t = (.ok o, t') ∧ e.Leads t t' := by
  cases hreason : s.rejection? m (38 + length) with
  | some code =>
    refine ⟨{ receipt := { exitCode := code, returnValue := [], gasUsed := 0 },
              penalty := 38 + length, reward := 0 }, .idle, Effect.within_idle,
      fun t ht halike => ⟨t, ?_, ?_⟩⟩
    · exact apply_of_rejected ht hlen ((rejection?_congr halike _).trans hreason)
    · exact ⟨fun i => Option.map_id'.symm, rfl⟩
  | none =>
    obtain ⟨id, a, gas, o, s', hsender, ha, _, happlied, hr'⟩ :=
      applied_of_known hs hlen hr hnonce hreason
    obtain ⟨b, hb, _⟩ := happlied.moved.sender
    refine ⟨o, .payment m id r b gas o, Effect.within_payment hsender hr b gas o,
      fun t ht halike => ?_⟩
    have htr := halike.recipient.trans hr
    obtain ⟨id', a', gas', o', t', hsender', ha', happly, happlied', htr'⟩ :=
      applied_of_known ht hlen htr (halike.record ▸ hnonce)
        ((rejection?_congr halike _).trans hreason)
    -- The sender is the same actor with the same record, so all there is to the payment is too.
    obtain rfl : id = id' :=
      Option.some.inj (hsender.symm.trans (halike.sender.symm.trans hsender'))
    have hrecord := halike.record
    rw [actor?_of_resolve hsender ha, actor?_of_resolve hsender' ha', Option.some.injEq] at hrecord
    subst hrecord
    obtain ⟨rfl, rfl⟩ := happlied.outcome_eq happlied' halike.recipient
    have hb' := happlied.moved.record_eq happlied'.moved (htr'.trans hr'.symm)
    exact ⟨t', happly, happlied'.leads ht ha' htr htr' (hb'.trans hb)⟩

end Local

/-- Two applications one after the other, and the root they lead to. -/
def inTurn (first second : Op Sandbox Outcome) : Op Sandbox (Outcome × Outcome × Cid) := do
  let o ← first
  let o' ← second
  let root ← machine.root
  pure (o, o', root)

theorem inTurn_of_apply {m₁ m₂ : Message} {l₁ l₂ : Nat} {o₁ o₂ : Outcome} {s₁ : Sandbox}
    (h₁ : apply m₁ l₁ s = (.ok o₁, s₁)) (h₂ : apply m₂ l₂ s₁ = (.ok o₂, t)) (e₁ e₂ : Int64)
    (w₁ w₂ : Address) :
    inTurn (machine.apply e₁ w₁ m₁ l₁) (machine.apply e₂ w₂ m₂ l₂) s =
      (.ok (o₁, o₂, t.root), t) := by
  have h₁ : machine.apply e₁ w₁ m₁ l₁ s = (.ok o₁, s₁) := by rw [machine_apply, h₁]; rfl
  have h₂ : machine.apply e₂ w₂ m₂ l₂ s₁ = (.ok o₂, t) := by rw [machine_apply, h₂]; rfl
  rw [inTurn, Op.bind_ok h₁, Op.bind_ok h₂]
  rfl

/-- In every state of a run two messages of different senders to recipients that are there, neither
of them to the sender of the other, are both applied in either order, each to the same outcome, and
lead to the same state and root, unless a sender has used up all its nonces. -/
theorem turns_commute {log : List (Application Sandbox)} (hran : machine.Ran {} s log)
    {m₁ m₂ : Message} {l₁ l₂ : Nat} (hl₁ : l₁ ≤ 2 ^ 62) (hl₂ : l₂ ≤ 2 ^ 62)
    (hsenders : ∀ id, s.resolve m₁.sender = some id → s.resolve m₂.sender ≠ some id)
    (hr₁ : s.resolve m₁.recipient ≠ none) (hr₂ : s.resolve m₂.recipient ≠ none)
    (hapart₁ : s.resolve m₁.recipient ≠ s.resolve m₂.sender)
    (hapart₂ : s.resolve m₂.recipient ≠ s.resolve m₁.sender)
    (hnonce₁ : ∀ a, s.actor? m₁.sender = some a → a.nonce.toNat < 2 ^ 64 - 1)
    (hnonce₂ : ∀ a, s.actor? m₂.sender = some a → a.nonce.toNat < 2 ^ 64 - 1)
    (e₁ e₂ : Int64) (w₁ w₂ : Address) :
    ∃ o₁ o₂ t,
      inTurn (machine.apply e₁ w₁ m₁ l₁) (machine.apply e₂ w₂ m₂ l₂) s =
        (.ok (o₁, o₂, t.root), t) ∧
      inTurn (machine.apply e₂ w₂ m₂ l₂) (machine.apply e₁ w₁ m₁ l₁) s =
        (.ok (o₂, o₁, t.root), t) := by
  have hs : Sound s := sound_fresh.edits (edits_of_ran hran)
  obtain ⟨r₁, hr₁⟩ := Option.ne_none_iff_exists'.mp hr₁
  obtain ⟨r₂, hr₂⟩ := Option.ne_none_iff_exists'.mp hr₂
  have hfirst : ∀ i, s.resolve m₂.sender = some i → s.resolve m₁.recipient ≠ some i :=
    fun i hi => hi ▸ hapart₁
  have hsecond : ∀ i, s.resolve m₁.sender = some i → s.resolve m₂.recipient ≠ some i :=
    fun i hi => hi ▸ hapart₂
  obtain ⟨o₁, d, hd, hlocal₁⟩ :=
    effect_of_message hs hl₁ hr₁ (fun a ha => Nat.ne_of_lt (hnonce₁ a ha))
  obtain ⟨o₂, e, he, hlocal₂⟩ :=
    effect_of_message hs hl₂ hr₂ (fun a ha => Nat.ne_of_lt (hnonce₂ a ha))
  -- Each message goes first, and finds the same when it comes second.
  obtain ⟨s₁, happly₁, hleads₁⟩ := hlocal₁ s hs ⟨rfl, rfl, rfl⟩
  obtain ⟨s₂, happly₂, hleads₂⟩ := hlocal₂ s hs ⟨rfl, rfl, rfl⟩
  have hs₁ : Sound s₁ := by simpa only [happly₁] using hs.edits (edits_apply m₁ l₁ s)
  have hs₂ : Sound s₂ := by simpa only [happly₂] using hs.edits (edits_apply m₂ l₂ s)
  have halike₂ : Alike m₂ s s₁ := hleads₁.alike fun i a hi =>
    hd.others i (fun hi' => hsenders i hi' hi) (hfirst i hi) a
  have halike₁ : Alike m₁ s s₂ := hleads₂.alike fun i a hi =>
    he.others i (hsenders i hi) (hsecond i hi) a
  obtain ⟨t, happly₂', hleads₂'⟩ := hlocal₂ s₁ hs₁ halike₂
  obtain ⟨t', happly₁', hleads₁'⟩ := hlocal₁ s₂ hs₂ halike₁
  obtain rfl : t = t' := hleads₁.diamond hleads₂' hleads₂ hleads₁'
    (Effect.commute hd he hsenders hfirst hsecond)
  exact ⟨o₁, o₂, t, inTurn_of_apply happly₁ happly₂' e₁ e₂ w₁ w₂,
    inTurn_of_apply happly₂ happly₁' e₂ e₁ w₂ w₁⟩

/-- A payment to one receiver that several make. -/
def share (sender : Address) (value : TokenAmount) : Message where
  recipient := .bls [9]
  sender
  nonce := 0
  value
  method := Message.send
  params := []
  gasFeeCap := 2
  gasPremium := 1
  gasLimit := 2000

/-- Two pay the same receiver; one cannot afford its share, and is charged for the attempt. -/
theorem turns_commute_shares :
    let first := machine.apply 1 (.id 1000) (share (.bls [7]) 5) 62
    let second := machine.apply 2 (.id 1001) (share (.id 101) 9000) 20
    ∃ s o₁ o₂ t, machine.Ran {} s [] ∧ inTurn first second s = (.ok (o₁, o₂, t.root), t) ∧
      inTurn second first s = (.ok (o₂, o₁, t.root), t) ∧
      o₁.receipt.exitCode = .ok ∧ o₂.receipt.exitCode = .insufficientFunds := by
  intro first second
  let opened (key : Address) : Machine.Call (Actor × Address) :=
    .vm (.createActor .account key 10000 .emptyObject)
  let s := (machine.call (opened (.bls [9])) (machine.call (opened (.bls [8]))
    (machine.call (opened (.bls [7])) {}).2).2).2
  have hran : machine.Ran {} s [] :=
    ((Machine.Ran.start.call (opened (.bls [7]))).call (opened (.bls [8]))).call (opened (.bls [9]))
  have hnonce : ∀ sender, (s.actor? sender).all (fun a => a.nonce.toNat < 2 ^ 64 - 1) = true →
      ∀ a, s.actor? sender = some a → a.nonce.toNat < 2 ^ 64 - 1 := by
    intro sender hall a ha
    simpa only [ha, Option.all_some, decide_eq_true_eq] using hall
  have hdistinct : s.resolve (.bls [7]) ≠ s.resolve (.id 101) := by decide +kernel
  obtain ⟨o₁, o₂, t, hfirst, hsecond⟩ : ∃ o₁ o₂ t,
      inTurn first second s = (.ok (o₁, o₂, t.root), t) ∧
      inTurn second first s = (.ok (o₂, o₁, t.root), t) :=
    turns_commute hran (by decide) (by decide)
      (fun id hid hid' => hdistinct (hid.trans hid'.symm)) (by decide +kernel) (by decide +kernel)
      (by decide +kernel) (by decide +kernel) (hnonce _ (by decide +kernel))
      (hnonce _ (by decide +kernel)) 1 2 (.id 1000) (.id 1001)
  have hcodes : (inTurn first second s).1.toOption.map
      (fun x => (x.1.receipt.exitCode, x.2.1.receipt.exitCode)) =
      some (.ok, .insufficientFunds) := by decide +kernel
  rw [hfirst] at hcodes
  obtain ⟨hok, hshort⟩ := Prod.mk.inj (Option.some.inj hcodes)
  exact ⟨s, o₁, o₂, t, hran, hfirst, hsecond, hok, hshort⟩

end Conformance.Sandbox
