import Mathlib.Logic.Relation
import Conformance.Proofs.Machine.Kept
import Conformance.Proofs.Sandbox.Cases

namespace Conformance

namespace Sandbox

open Relation (ReflTransGen)

/-- The kinds of changes that calls are made of. Steady ones leave nonces alone: no record gets another
one, and a new record begins at zero. -/
inductive Edit (steady : Prop) : Sandbox → Sandbox → Prop
  /-- The record of an actor is replaced, all but its code. -/
  | put {s : Sandbox} {id : UInt64} {a b : Actor} (h : s.actors.get? id = some a)
      (hcode : b.code = a.code) (hnonce : steady → b.nonce = a.nonce) :
    Edit steady s (s.putActor id b)
  | insert {s s' : Sandbox} {address : Address} {a : Actor} {id : UInt64}
      (h : s.insertActor address a = .ok (id, s')) (hcode : a.code = .account)
      (hnonce : steady → a.nonce = 0) : Edit steady s s'
  | store {s : Sandbox} (data : Bytes) : Edit steady s (s.storePut data).2
  /-- What is burnt stays burnt. -/
  | move {s : Sandbox} (rewardPool burnt : TokenAmount) (h : s.burnt ≤ burnt) :
    Edit steady s { s with rewardPool, burnt }
  | tick {s : Sandbox} (lastCron : Option (Int64 × Bytes)) : Edit steady s { s with lastCron }

/-- Any number of edits. -/
abbrev Edits : Sandbox → Sandbox → Prop := ReflTransGen (Edit False)

/-- Any number of edits that leave nonces alone. -/
abbrev Changes : Sandbox → Sandbox → Prop := ReflTransGen (Edit True)

variable {s s' : Sandbox} {id : UInt64} {a : Actor} {steady : Prop}

theorem Edit.loose (h : Edit steady s s') : Edit False s s' := by
  cases h with
  | put h hcode _ => exact .put h hcode False.elim
  | insert h hcode _ => exact .insert h hcode False.elim
  | store data => exact .store data
  | move rewardPool burnt h => exact .move rewardPool burnt h
  | tick lastCron => exact .tick lastCron

theorem Changes.edits (h : Changes s s') : Edits s s' :=
  ReflTransGen.mono (fun _ _ => Edit.loose) _ _ h

theorem changes_credit {amount : TokenAmount} (h : s.credit id amount = .ok s') :
    Changes s s' := by
  obtain ⟨a, ha, rfl⟩ := credit_ok h
  exact .single (.put ha rfl (fun _ => rfl))

theorem changes_debit {amount : TokenAmount} {uncovered : Machine.Error}
    (h : s.debit id amount uncovered = .ok s') : Changes s s' := by
  obtain ⟨a, ha, _, rfl⟩ := debit_ok h
  exact .single (.put ha rfl (fun _ => rfl))

theorem changes_locate {address : Address} (h : s.locate address = .ok (id, s')) :
    Changes s s' := by
  rcases locate_cases h with ⟨rfl, _⟩ | hins
  · exact .refl
  · exact .single (.insert hins rfl (fun _ => rfl))

theorem changes_transfer (s : Sandbox) (sender receiver : UInt64) (value : TokenAmount) :
    Changes s (s.transfer sender receiver value).2 := by
  rcases transfer_cases s sender receiver value with
    ⟨e, h⟩ | ⟨s₁, hd, ⟨e, h⟩ | ⟨s₂, hc, h⟩⟩ <;> rw [h]
  · exact changes_debit hd
  · exact (changes_debit hd).trans (changes_credit hc)

theorem changes_execute (s : Sandbox) (sender : UInt64) (m : Message) (available : TokenAmount)
    (gasLeft : Int64) : Changes s (s.execute sender m available gasLeft).2 := by
  rcases execute_cases s sender m available gasLeft with
    ⟨code, gas, _, h⟩ | ⟨e, _, h⟩ | ⟨s₁, receiver, gas, hloc, _, h⟩ <;> rw [h]
  exact (changes_locate hloc).trans (changes_transfer s₁ sender receiver m.value)

theorem changes_settle (s : Sandbox) (sender : UInt64) (m : Message) (code : ExitCode)
    (gasUsed : Int64) : Changes s (s.settle sender m code gasUsed).2 := by
  rcases settle_cases s sender m code gasUsed with
    ⟨e, h⟩ | ⟨s₁, burn, reward, o, hd, _, h⟩ <;> rw [h]
  exact (changes_debit hd).tail (.move _ _ (Nat.le_add_right _ _))

theorem changes_run (s : Sandbox) (sender : UInt64) (m : Message) (available : TokenAmount)
    (inclusion : Int64) : Changes s (s.run sender m available inclusion).2 := by
  rcases run_cases s sender m available inclusion with
    ⟨e, h⟩ | ⟨gasLeft, _, ⟨e, h⟩ | ⟨code, gas, s₁, total, hex, _, h⟩⟩ <;> rw [h]
  · exact changes_execute s sender m available gasLeft
  · have := changes_execute s sender m available gasLeft
    rw [hex] at this
    exact this.trans (changes_settle s₁ sender m code _)

theorem edits_apply (m : Message) (chainLength : Nat) (s : Sandbox) :
    Edits s (apply m chainLength s).2 := by
  rcases apply_cases m chainLength s with
    ⟨r, _, h⟩ | ⟨inclusion, sender, actor, available, nonce, _, hadm, _, h⟩ <;> rw [h]
  obtain ⟨_, hactor, _⟩ := admission_ok hadm
  exact (ReflTransGen.single (.put hactor rfl False.elim)).trans
    (changes_run _ sender m available inclusion).edits

theorem changes_reward (miner : Address) (penalty gasReward : TokenAmount) (tickets : Int64)
    (s : Sandbox) : Changes s (reward miner penalty gasReward tickets s).2 := by
  have hmove : ∀ pool fine, Changes s { s with rewardPool := pool, burnt := s.burnt + fine } :=
    fun pool fine => .single (.move pool _ (Nat.le_add_right _ _))
  rcases reward_cases miner penalty gasReward tickets s with
    ⟨e, h⟩ | ⟨id, s₁, hloc, ⟨e, h⟩ | ⟨s₂, hc, h⟩⟩ <;> rw [h]
  · exact hmove _ _
  · exact (hmove _ _).trans (changes_locate hloc)
  · exact ((hmove _ _).trans (changes_locate hloc)).trans (changes_credit hc)

theorem changes_setActorState {address : Address} {balance : TokenAmount} {head : Cid}
    (h : s.setActorState address balance head = .ok (a, s')) : Changes s s' := by
  obtain ⟨id, b, _, hb, rfl, rfl⟩ := setActorState_ok h
  exact .single (.put hb rfl (fun _ => rfl))

theorem changes_createActor {code : Cid} {address : Address} {balance : TokenAmount} {head : Cid}
    {r : Actor × Address} (h : s.createActor code address balance head = .ok (r, s')) :
    Changes s s' := by
  obtain ⟨rfl, hr, id, _, hins⟩ := createActor_ok h
  exact .single (.insert hins (by rw [hr]) (fun _ => by rw [hr]))

theorem changes_vmCall {α : Type} (c : Vm.Call α) (s : Sandbox) : Changes s (vm.call c s).2 := by
  cases c with
  | root => exact .refl
  | storeGet cid => exact .refl
  | actor address => exact .refl
  | storePut data => exact .single (.store data)
  | setActorState address balance head =>
    change Changes s (Op.ofUpdate (·.setActorState address balance head) s).2
    unfold Op.ofUpdate
    split
    · rename_i h
      exact changes_setActorState h
    · exact .refl
  | createActor code address balance head =>
    change Changes s (Op.ofUpdate (·.createActor code address balance head) s).2
    unfold Op.ofUpdate
    split
    · rename_i h
      exact changes_createActor h
    · exact .refl

/-- A call that succeeds and a call that fails are chains of edits alike. -/
theorem edits_call {α : Type} (c : Machine.Call α) (s : Sandbox) : Edits s (machine.call c s).2 := by
  cases c with
  | apply epoch miner m chainLength => exact edits_apply m chainLength s
  | reward epoch miner penalty gasReward tickets =>
    exact (changes_reward miner penalty gasReward tickets s).edits
  | cron epoch randomness => exact .single (.tick _)
  | vm c => exact (changes_vmCall c s).edits

/-- IDs in use are below the next one, and keys stand for actors of their own. -/
structure Sound (s : Sandbox) : Prop where
  first : 100 ≤ s.nextId.toNat
  below : ∀ id a, s.actors.get? id = some a → id.toNat < s.nextId.toNat
  accounts : ∀ id a, s.actors.get? id = some a → a.code = .account
  keys : ∀ k id, s.addresses.get? k = some id → k.isId = false ∧ 100 ≤ id.toNat
  named : ∀ k id, s.addresses.get? k = some id → ∃ a, s.actors.get? id = some a
  distinct : ∀ k l id, s.addresses.get? k = some id → s.addresses.get? l = some id → k = l
  stored : ∀ cid data, s.store.get? cid = some data → cid = .ofBytes data

theorem sound_fresh : Sound {} where
  first := by decide
  below id a h := by simp at h
  accounts id a h := by simp at h
  keys k id h := by simp at h
  named k id h := by simp at h
  distinct k l id h := by simp at h
  stored cid data h := by simp at h

/-- A new actor takes the place of no other. -/
theorem Sound.vacant (hs : Sound s) {address : Address}
    (h : s.insertActor address a = .ok (id, s')) : s.actors.get? id = none := by
  obtain ⟨hnone, hid, _⟩ := insertActor_ok h
  cases address with
  | id n =>
    simp only [Address.id?, Option.getD_some] at hid
    subst hid
    cases hget : s.actors.get? id with
    | none => rfl
    | some b => simp [resolve, SortedMap.contains, hget] at hnone
  | _ =>
    simp only [Address.id?, Option.getD_none] at hid
    subst hid
    cases hget : s.actors.get? s.nextId with
    | none => rfl
    | some b => exact absurd (hs.below _ b hget) (Nat.lt_irrefl _)

theorem Sound.put (hs : Sound s) {b : Actor} (ha : s.actors.get? id = some a)
    (hcode : b.code = a.code) : Sound (s.putActor id b) := by
  refine { hs with below := ?_, accounts := ?_, named := ?_ }
  · intro i c hc
    rw [get?_putActor] at hc
    split at hc
    · rename_i heq
      exact heq ▸ hs.below id a ha
    · exact hs.below i c hc
  · intro i c hc
    rw [get?_putActor] at hc
    split at hc
    · rw [← Option.some.inj hc, hcode]
      exact hs.accounts id a ha
    · exact hs.accounts i c hc
  · intro k i hk
    rw [get?_putActor]
    split
    · exact ⟨b, rfl⟩
    · exact hs.named k i hk

/-- No key stands for the next ID yet. -/
theorem Sound.next_unnamed (hs : Sound s) (k : Address) : s.addresses.get? k ≠ some s.nextId := by
  intro hk
  obtain ⟨b, hb⟩ := hs.named k _ hk
  exact absurd (hs.below _ b hb) (Nat.lt_irrefl _)

theorem Sound.insert (hs : Sound s) {address : Address}
    (h : s.insertActor address a = .ok (id, s')) (hcode : a.code = .account) : Sound s' where
  first := by
    have := hs.first
    rw [nextId_of_insertActor h]
    omega
  below i b hb := by
    rw [actors_of_insertActor h, SortedMap.get?_insert] at hb
    rw [nextId_of_insertActor h]
    split at hb
    · rename_i heq
      subst heq
      omega
    · have := hs.below i b hb
      omega
  accounts i b hb := by
    rw [actors_of_insertActor h, SortedMap.get?_insert] at hb
    split at hb
    · rw [← Option.some.inj hb, hcode]
    · exact hs.accounts i b hb
  keys k i hk := by
    rcases key_of_insertActor h hk with ⟨hkind, rfl, rfl, _⟩ | hk
    · exact ⟨hkind, hs.first⟩
    · exact hs.keys k i hk
  named k i hk := by
    rw [actors_of_insertActor h, SortedMap.get?_insert]
    rcases key_of_insertActor h hk with ⟨_, _, _, rfl⟩ | hk
    · exact ⟨a, by simp⟩
    · split
      · exact ⟨a, rfl⟩
      · exact hs.named k i hk
  distinct k l i hk hl := by
    rcases key_of_insertActor h hk with ⟨_, hk', hnext, _⟩ | hk'
    · rcases key_of_insertActor h hl with ⟨_, hl', _, _⟩ | hl'
      · rw [hk', hl']
      · exact absurd (hnext ▸ hl') (hs.next_unnamed l)
    · rcases key_of_insertActor h hl with ⟨_, _, hnext, _⟩ | hl'
      · exact absurd (hnext ▸ hk') (hs.next_unnamed k)
      · exact hs.distinct k l i hk' hl'
  stored := store_of_insertActor h ▸ hs.stored

theorem Sound.move (hs : Sound s) (rewardPool burnt : TokenAmount) :
    Sound { s with rewardPool, burnt } := { hs with }

theorem Sound.edit (hs : Sound s) (h : Edit steady s s') : Sound s' := by
  cases h with
  | put ha hcode _ => exact hs.put ha hcode
  | insert h hcode _ => exact hs.insert h hcode
  | move rewardPool burnt _ => exact hs.move rewardPool burnt
  | tick lastCron => exact { hs with }
  | store data =>
    refine { hs with stored := ?_ }
    intro cid d hd
    simp only [storePut, SortedMap.get?_insert] at hd
    split at hd
    · rename_i heq
      rw [← heq, Option.some.inj hd]
    · exact hs.stored cid d hd

theorem Sound.edits (hs : Sound s) (h : ReflTransGen (Edit steady) s s') : Sound s' := by
  induction h with
  | refl => exact hs
  | tail _ hedit ih => exact ih.edit hedit

end Sandbox
end Conformance
