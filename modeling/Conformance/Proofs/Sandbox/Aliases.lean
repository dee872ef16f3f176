import Conformance.Proofs.Sandbox.Atomicity
import Conformance.Proofs.Sandbox.Growth
import Conformance.Proofs.Sandbox.Nonces

namespace Conformance.Sandbox

open Machine (Error Application)

variable {s t : Sandbox} {id : UInt64} {a b : Address} {m n : Message}

/-- Two addresses of one actor. -/
def Alias (s : Sandbox) (a b : Address) : Prop :=
  ∃ id, s.resolve a = some id ∧ s.resolve b = some id

namespace Alias

theorem resolve_eq (h : Alias s a b) : s.resolve a = s.resolve b := by
  obtain ⟨id, ha, hb⟩ := h
  exact ha.trans hb.symm

/-- An address goes on standing for the same actor. -/
theorem grows (h : Alias s a b) (hgrows : Grows s t) : Alias t a b := by
  obtain ⟨id, ha, hb⟩ := h
  exact ⟨id, hgrows.resolves a id ha, hgrows.resolves b id hb⟩

end Alias

theorem id_or_key (h : s.resolve a = some id) :
    a = .id id ∨ a.isId = false ∧ s.addresses.get? a = some id := by
  cases a with
  | id n =>
    obtain ⟨_, rfl⟩ := contains_of_resolve_id h
    exact .inl rfl
  | secp256k1 p => exact .inr ⟨rfl, h⟩
  | actor p => exact .inr ⟨rfl, h⟩
  | bls key => exact .inr ⟨rfl, h⟩

/-- Of two addresses of one actor, one is its ID and the other its key. -/
theorem Sound.forms (hs : Sound s) (ha : s.resolve a = some id) (hb : s.resolve b = some id) :
    a = b ∨ (a = .id id ∧ b.isId = false) ∨ (a.isId = false ∧ b = .id id) := by
  rcases id_or_key ha with rfl | ⟨hkeyA, ha⟩ <;> rcases id_or_key hb with rfl | ⟨hkeyB, hb⟩
  · exact .inl rfl
  · exact .inr (.inl ⟨rfl, hkeyB⟩)
  · exact .inr (.inr ⟨hkeyA, rfl⟩)
  · exact .inl (hs.distinct a b id ha hb)

/-- What is held against a new actor where there is one. -/
def occupied (code : Cid) (address : Address) : Error :=
  if code = .account then .actorExists address else .unsupportedCode code

theorem createActor_of_resolve (h : s.resolve a = some id) (code : Cid) (balance : TokenAmount)
    (head : Cid) : machine.createActor code a balance head s =
      (.error (.ofMachine (occupied code a)), s) := by
  have hfails : s.createActor code a balance head = .error (occupied code a) := by
    unfold createActor insertActor occupied
    rw [h]
    by_cases hcode : code = .account
    · simp only [hcode, ne_eq, not_true_eq_false, ↓reduceIte, Option.isSome_some]
      rfl
    · simp only [hcode, ne_eq, not_false_eq_true, ↓reduceIte]
  change Op.ofUpdate (·.createActor code a balance head) s = _
  simp only [Op.ofUpdate, hfails]

/-- Two addresses that a caller need not tell apart: every call that is made with the one has the
answer and the effect that it has with the other, but for the name in what a refusal says. -/
structure Interchangeable (s : Sandbox) (a b : Address) : Prop where
  actor : machine.actor a s = machine.actor b s
  setActorState : ∀ balance head,
    machine.setActorState a balance head s = machine.setActorState b balance head s
  createActor : ∀ code balance head,
    machine.createActor code a balance head s = (.error (.ofMachine (occupied code a)), s) ∧
      machine.createActor code b balance head s = (.error (.ofMachine (occupied code b)), s)
  reward : ∀ epoch penalty gasReward tickets,
    machine.reward epoch a penalty gasReward tickets s =
      machine.reward epoch b penalty gasReward tickets s

theorem locate_of_alias (h : Alias s a b) : s.locate a = s.locate b := by
  obtain ⟨id, ha, hb⟩ := h
  simp only [locate, ha, hb]

theorem setActorState_of_alias (h : Alias s a b) (balance : TokenAmount) (head : Cid) :
    s.setActorState a balance head = s.setActorState b balance head := by
  unfold setActorState
  rw [h.resolve_eq]
  obtain ⟨id, _, hb⟩ := h
  simp only [hb]

/-- Tokens are moved before the miner is looked for, which moves nobody. -/
theorem reward_of_alias (h : Alias s a b) (penalty gasReward : TokenAmount) (tickets : Int64) :
    reward a penalty gasReward tickets s = reward b penalty gasReward tickets s := by
  obtain ⟨id, ha, hb⟩ := h
  have hlocate : (s.collected penalty gasReward tickets).locate a =
      (s.collected penalty gasReward tickets).locate b :=
    locate_of_alias ⟨id, resolve_collected.trans ha, resolve_collected.trans hb⟩
  simp only [collected, fined, taken] at hlocate
  unfold reward
  simp only [hlocate]

theorem Alias.interchangeable (h : Alias s a b) : Interchangeable s a b := by
  constructor
  case actor =>
    have hsame : s.actor? a = s.actor? b := by rw [actor?, actor?, h.resolve_eq]
    exact congrArg (fun x => (Except.ok x, s)) hsame
  case setActorState =>
    intro balance head
    have hsame := setActorState_of_alias h balance head
    change Op.ofUpdate (·.setActorState a balance head) s =
      Op.ofUpdate (·.setActorState b balance head) s
    simp only [Op.ofUpdate, hsame]
  case createActor =>
    obtain ⟨id, ha, hb⟩ := h
    exact fun code balance head => ⟨createActor_of_resolve ha code balance head,
      createActor_of_resolve hb code balance head⟩
  case reward =>
    intro epoch penalty gasReward tickets
    rw [machine_reward, machine_reward, reward_of_alias h]

/-- Messages that are the same but for the addresses they name their sender and their recipient
by. -/
structure Readdressed (s : Sandbox) (m n : Message) : Prop where
  sender : m.sender = n.sender ∨ Alias s m.sender n.sender
  recipient : m.recipient = n.recipient ∨ Alias s m.recipient n.recipient
  rest : n = { m with sender := n.sender, recipient := n.recipient }

/-- The sender's address is only looked at on admission. -/
theorem apply_sender (h : s.resolve a = s.resolve m.sender) (length : Nat) :
    apply { m with sender := a } length s = apply m length s := by
  have hadmission : ∀ inclusion,
      s.admission { m with sender := a } inclusion = s.admission m inclusion := by
    intro inclusion
    unfold admission
    simp only [h]
  unfold apply
  simp only [hadmission]
  rfl

/-- The recipient's address does not matter where it leads to somebody. -/
theorem run_recipient (h : Alias s a m.recipient) (sender : UInt64) (available : TokenAmount)
    (inclusion : Int64) : s.run sender { m with recipient := a } available inclusion =
      s.run sender m available inclusion := by
  obtain ⟨r, ha, hm⟩ := h
  have hexecute : ∀ gasLeft, s.execute sender { m with recipient := a } available gasLeft =
      s.execute sender m available gasLeft := by
    intro gasLeft
    unfold execute
    simp only [ha, hm]
  unfold run
  simp only [hexecute]
  rfl

theorem apply_recipient (h : Alias s a m.recipient) (length : Nat) :
    apply { m with recipient := a } length s = apply m length s := by
  have hadmission : ∀ inclusion,
      s.admission { m with recipient := a } inclusion = s.admission m inclusion := fun _ => rfl
  unfold apply
  simp only [hadmission]
  split
  · rfl
  · split
    · rfl
    · rfl
    · rename_i sender actor available hadm
      split
      · rfl
      · -- The recipient is looked for after the nonce is used up, which moves nobody.
        obtain ⟨_, hactor, _⟩ := admission_ok hadm
        obtain ⟨r, ha, hm⟩ := h
        exact run_recipient ⟨r, (resolve_putActor hactor a).trans ha,
          (resolve_putActor hactor m.recipient).trans hm⟩ sender available _

theorem Readdressed.apply_eq (h : Readdressed s m n) (length : Nat) :
    apply n length s = apply m length s := by
  have hsender : s.resolve n.sender = s.resolve m.sender :=
    h.sender.elim (congrArg s.resolve ·.symm) (·.resolve_eq.symm)
  rw [h.rest]
  calc apply { m with sender := n.sender, recipient := n.recipient } length s
    _ = apply { m with recipient := n.recipient } length s :=
      apply_sender (m := { m with recipient := n.recipient }) hsender length
    _ = apply m length s := by
      rcases h.recipient with heq | ⟨r, hm, hn⟩
      · rw [← heq]
      · exact apply_recipient ⟨r, hn, hm⟩ length

/-- The nonce of an accepted message is spent for all addresses of its sender. -/
theorem refused_of_spent (hs : Sound s) {epoch epoch' : Int64} {miner miner' : Address}
    {length length' : Nat} {log : List (Application Sandbox)}
    (haccepted : (machine.application epoch miner m length s).accepted = true)
    (hran : machine.Ran (machine.application epoch miner m length s).after t log)
    (hnonce : m.nonce = n.nonce) (hsender : t.resolve m.sender = t.resolve n.sender) :
    (machine.application epoch' miner' n length' t).accepted = false := by
  have happlied : Edits s (machine.application epoch miner m length s).after :=
    edits_apply m length s
  have hafter := hs.edits happlied
  have ht : Sound t := hafter.edits (edits_of_ran hran)
  rcases application_cases hs epoch miner m length with
    ⟨_, hrefused⟩ | ⟨sender, hfound, hfirst, hused, _⟩
  · cases haccepted.symm.trans hrefused
  rcases application_cases ht epoch' miner' n length' with
    ⟨_, hrefused⟩ | ⟨sender', hfound', hsecond, _⟩
  · exact hrefused
  -- The sender has been found at the same place, with more nonces used up than the second message
  -- has.
  have hlater := (Edits.grows (happlied.trans (edits_of_ran hran))).resolves m.sender sender hfound
  obtain rfl := Option.some.inj (hlater.symm.trans (hsender.trans hfound'))
  have hspent := used_of_ran hafter hran sender
  rw [hused sender, if_pos rfl, ← hfirst, hnonce, ← hsecond] at hspent
  exact absurd hspent (Nat.not_succ_le_self _)

/-- In every state of a run two addresses of one actor, its ID and its key, are as good as each
other, then and in all states to come. A message comes to the same outcome and leads to the same
state under either of them, for its sender and for its recipient. Once it is accepted, whatever
happens next, no message of its sender with its nonce is, whether it names the same address or the
other. -/
theorem aliases_of_ran {log : List (Application Sandbox)} (hran : machine.Ran {} s log) :
    (∀ a b id, s.resolve a = some id → s.resolve b = some id →
      (a = b ∨ (a = .id id ∧ b.isId = false) ∨ (a.isId = false ∧ b = .id id)) ∧
      ∀ t log', machine.Ran s t log' → Alias t a b ∧ Interchangeable t a b) ∧
    (∀ m n, Readdressed s m n → ∀ epoch epoch' miner miner' length,
      machine.apply epoch miner m length s = machine.apply epoch' miner' n length s) ∧
    ∀ (m n : Message) epoch epoch' miner miner' length length' t log', m.nonce = n.nonce →
      (m.sender = n.sender ∨ Alias t m.sender n.sender) →
      (machine.application epoch miner m length s).accepted = true →
      machine.Ran (machine.application epoch miner m length s).after t log' →
      (machine.application epoch' miner' n length' t).accepted = false := by
  have hs : Sound s := sound_fresh.edits (edits_of_ran hran)
  refine ⟨fun a b id ha hb => ⟨hs.forms ha hb, fun t _ hlater => ?_⟩, ?_, ?_⟩
  · have halias : Alias t a b := Alias.grows ⟨id, ha, hb⟩ (Edits.grows (edits_of_ran hlater))
    exact ⟨halias, halias.interchangeable⟩
  · intro m n h epoch epoch' miner miner' length
    rw [machine_apply, machine_apply, h.apply_eq]
  · intro m n epoch epoch' miner miner' length length' t log' hnonce hsender haccepted hlater
    exact refused_of_spent hs haccepted hlater hnonce
      (hsender.elim (congrArg t.resolve ·) (·.resolve_eq))

/-- The payment to oneself with its addresses changed round. -/
def returning : Message := { roundabout with recipient := .id 100, sender := .bls [7] }

/-- It comes to the same as the first form of it, and is too late after that one. -/
theorem aliases_of_ran_returning : ∃ s s', machine.Ran {} s [] ∧
    Interchangeable s (.bls [7]) (.id 100) ∧
    machine.apply 1 (.id 1000) roundabout 62 s = (.ok ⟨⟨.ok, [], 200⟩, 0, 200⟩, s') ∧
    machine.apply 2 (.bls [7]) returning 62 s = (.ok ⟨⟨.ok, [], 200⟩, 0, 200⟩, s') ∧
    (machine.application 1 (.id 1000) returning 100 s').accepted = false := by
  let s := (machine.call (.vm (.createActor .account (.bls [7]) 10000 .emptyObject)) {}).2
  let e := machine.application 1 (.id 1000) roundabout 62 s
  have hran : machine.Ran {} s [] :=
    Machine.Ran.start.call (.vm (.createActor .account (.bls [7]) 10000 .emptyObject))
  have hkey : s.resolve (.bls [7]) = some 100 := by decide +kernel
  have hid : s.resolve (.id 100) = some 100 := by decide +kernel
  have hkey' : e.after.resolve (.bls [7]) = some 100 := by decide +kernel
  have hid' : e.after.resolve (.id 100) = some 100 := by decide +kernel
  have hdone : machine.apply 1 (.id 1000) roundabout 62 s =
      (.ok ⟨⟨.ok, [], 200⟩, 0, 200⟩, e.after) := rfl
  obtain ⟨hforms, hsame, hspent⟩ := aliases_of_ran hran
  have hturned : Readdressed s roundabout returning :=
    ⟨.inr ⟨100, hid, hkey⟩, .inr ⟨100, hkey, hid⟩, rfl⟩
  refine ⟨s, e.after, hran, ((hforms _ _ 100 hkey hid).2 s [] .start).2, hdone, ?_, ?_⟩
  · rw [← hsame roundabout returning hturned 1 2 (.id 1000) (.bls [7]) 62, hdone]
  · exact hspent roundabout returning 1 1 (.id 1000) (.id 1000) 62 100 e.after [] rfl
      (.inr ⟨100, hid', hkey'⟩) (by decide +kernel) .start

end Conformance.Sandbox
