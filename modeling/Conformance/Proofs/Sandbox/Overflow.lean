import Conformance.Proofs.Sandbox.Reached

namespace Conformance

namespace Word

theorem add?_eq_some {a b c : Int64} (h : add? a b = some c) : c.toInt = a.toInt + b.toInt := by
  unfold add? at h
  split at h
  · rename_i hrange
    simp only [inRange, Bool.and_eq_true, decide_eq_true_eq] at hrange
    rw [← Option.some.inj h, Int64.toInt_add]
    exact Int.bmod_eq_of_le (by omega) (by omega)
  · cases h

theorem sub?_eq_some {a b c : Int64} (h : sub? a b = some c) : c.toInt = a.toInt - b.toInt := by
  unfold sub? at h
  split at h
  · rename_i hrange
    simp only [inRange, Bool.and_eq_true, decide_eq_true_eq] at hrange
    rw [← Option.some.inj h, Int64.toInt_sub]
    exact Int.bmod_eq_of_le (by omega) (by omega)
  · cases h

theorem add?_ne_none {a b : Int64} (hlow : -9223372036854775808 ≤ a.toInt + b.toInt)
    (hhigh : a.toInt + b.toInt ≤ 9223372036854775807) : add? a b ≠ none := by
  simp [add?, inRange, hlow, hhigh]

theorem sub?_ne_none {a b : Int64} (hlow : -9223372036854775808 ≤ a.toInt - b.toInt)
    (hhigh : a.toInt - b.toInt ≤ 9223372036854775807) : sub? a b ≠ none := by
  simp [sub?, inRange, hlow, hhigh]

theorem next?_ne_none {n : UInt64} (h : n.toNat < 18446744073709551615) : next? n ≠ none := by
  simp [next?, Nat.ne_of_lt h]

end Word

namespace Sandbox

open Machine (Error)

/-- The greatest length that a message is charged for without any risk. -/
def maxLength : Nat := 4611686018427387904

theorem fits_of_le {chainLength : Nat} (hlen : chainLength ≤ maxLength) :
    38 + chainLength < 2 ^ 63 := by
  unfold maxLength at hlen
  omega

theorem inclusionGas?_eq_some {chainLength : Nat} {inclusion : Int64}
    (hlen : chainLength < 2 ^ 63) (h : inclusionGas? chainLength = some inclusion) :
    inclusion.toInt = 38 + chainLength := by
  have hbase : inclusionBase.toInt = 38 := by decide
  rw [Word.add?_eq_some h, Int64.toInt_ofNat_of_lt hlen, hbase]

theorem inclusionGas?_ne_none {chainLength : Nat} (hlen : 38 + chainLength < 2 ^ 63) :
    inclusionGas? chainLength ≠ none := by
  have hbase : inclusionBase.toInt = 38 := by decide
  have hofNat := Int64.toInt_ofNat_of_lt (Nat.lt_of_add_left_lt hlen)
  refine Word.add?_ne_none ?_ ?_ <;> rw [hofNat, hbase] <;> omega

/-- An outcome that is not an overflow. -/
def Quiet {α : Type} (r : Except Error α) : Prop := ∀ e, r = .error e → e.isOverflow = false

variable {s s' : Sandbox} {id : UInt64} {a : Actor}

theorem quiet_ok {α : Type} (x : α) : Quiet (.ok x) := fun _ h => by cases h

theorem quiet_error {α : Type} {e : Error} (h : e.isOverflow = false) :
    Quiet (.error e : Except Error α) := fun _ he => by cases he; exact h

theorem quiet_actorAt (s : Sandbox) (id : UInt64) : Quiet (s.actorAt id) := by
  unfold actorAt
  split
  · exact quiet_ok _
  · exact quiet_error rfl

theorem quiet_credit (s : Sandbox) (id : UInt64) (amount : TokenAmount) :
    Quiet (s.credit id amount) := by
  unfold credit
  cases ha : s.actorAt id with
  | error e => exact quiet_error (quiet_actorAt s id e ha)
  | ok a => exact quiet_ok _

theorem quiet_debit (s : Sandbox) (id : UInt64) (amount : TokenAmount) {uncovered : Error}
    (h : uncovered.isOverflow = false) : Quiet (s.debit id amount uncovered) := by
  unfold debit
  cases ha : s.actorAt id with
  | error e => exact quiet_error (quiet_actorAt s id e ha)
  | ok a =>
    simp only [bind, Except.bind]
    split
    · exact quiet_error h
    · exact quiet_ok _

theorem quiet_insertActor (s : Sandbox) (address : Address) (a : Actor) :
    Quiet (s.insertActor address a) := by
  unfold insertActor
  split
  · exact quiet_error rfl
  · simp only
    split
    · exact quiet_error rfl
    · exact quiet_ok _

theorem quiet_locate (s : Sandbox) (address : Address) : Quiet (s.locate address) := by
  unfold locate
  split
  · exact quiet_ok _
  · exact quiet_insertActor s address _

theorem quiet_transfer (s : Sandbox) (sender receiver : UInt64) (value : TokenAmount) :
    Quiet (s.transfer sender receiver value).1 := by
  unfold transfer
  split
  · rename_i e he
    exact quiet_error (quiet_debit s sender value (by rfl) e he)
  · split
    · rename_i s₁ _ _ e he
      exact quiet_error (quiet_credit s₁ receiver value e he)
    · exact quiet_ok _

theorem Quiet.map {α β : Type} {r : Except Error α} (h : Quiet r) (f : α → β) :
    Quiet (r.map f) := by
  cases r with
  | error e => exact quiet_error (h e rfl)
  | ok x => exact quiet_ok _

theorem quiet_execute (s : Sandbox) (sender : UInt64) (m : Message) (available : TokenAmount)
    (gasLeft : Int64) : Quiet (s.execute sender m available gasLeft).1 := by
  rcases execute_cases s sender m available gasLeft with
    ⟨code, gas, _, h⟩ | ⟨e, hloc, h⟩ | ⟨s₁, receiver, gas, _, _, h⟩ <;> rw [h]
  · exact quiet_ok _
  · exact quiet_error (quiet_locate s m.recipient e hloc)
  · exact (quiet_transfer s₁ sender receiver m.value).map _

/-- An execution takes as much gas as creating a receiver and sending to it, at most. -/
theorem gas_execute {s : Sandbox} {sender : UInt64} {m : Message} {available : TokenAmount}
    {gasLeft : Int64} {code : ExitCode} {gas : Int64} (hleft : 0 ≤ gasLeft.toInt)
    (h : (s.execute sender m available gasLeft).1 = .ok (code, gas)) :
    0 ≤ gas.toInt ∧ gas.toInt ≤ 1100 := by
  have hsend : sendGas.toInt = 100 := by decide
  have hboth : (sendGas + createGas).toInt = 1100 := by decide
  rcases execute_cases s sender m available gasLeft with
    ⟨code', gas', hgas, he⟩ | ⟨e, _, he⟩ | ⟨s₁, receiver, gas', _, hgas, he⟩ <;> rw [he] at h
  · obtain ⟨_, rfl⟩ := Prod.mk.inj (Except.ok.inj h)
    rcases hgas with rfl | ⟨rfl, hlt⟩
    · omega
    · rw [Int64.lt_iff_toInt_lt] at hlt
      omega
  · cases h
  · rcases ht : s₁.transfer sender receiver m.value with ⟨_ | _, _⟩
    · simp [ht, Except.map] at h
    · simp only [ht, Except.map, Except.ok.injEq, Prod.mk.injEq] at h
      obtain ⟨_, rfl⟩ := h
      rcases hgas with rfl | rfl <;> omega

theorem quiet_settle (s : Sandbox) (sender : UInt64) (m : Message) (code : ExitCode)
    (gasUsed : Int64) : Quiet (s.settle sender m code gasUsed).1 := by
  unfold settle
  simp only
  split
  · rename_i e he
    exact quiet_error (quiet_debit s sender _ (by rfl) e he)
  · exact quiet_ok _

theorem quiet_run (s : Sandbox) (sender : UInt64) {m : Message} (available : TokenAmount)
    {inclusion : Int64} (hlow : 0 ≤ inclusion.toInt) (hhigh : inclusion.toInt ≤ 38 + maxLength)
    (hlimit : inclusion ≤ m.gasLimit) : Quiet (s.run sender m available inclusion).1 := by
  have hlimit := Int64.le_iff_toInt_le.mp hlimit
  have hmax := m.gasLimit.toInt_lt
  unfold maxLength at hhigh
  unfold run
  split
  · rename_i hnone
    exact absurd hnone (Word.sub?_ne_none (by omega) (by omega))
  · rename_i gasLeft hleft
    have hleft := Word.sub?_eq_some hleft
    have hquiet := quiet_execute s sender m available gasLeft
    rcases hex : s.execute sender m available gasLeft with ⟨e | ⟨code, gas⟩, s₁⟩
    · exact quiet_error (hquiet e (by rw [hex]))
    · obtain ⟨_, _⟩ := gas_execute (by omega) (congrArg Prod.fst hex)
      simp only
      split
      · rename_i hnone
        exact absurd hnone (Word.add?_ne_none (by omega) (by omega))
      · exact quiet_settle s₁ sender m code _

theorem quiet_admission (s : Sandbox) (m : Message) (inclusion : Int64) :
    Quiet (s.admission m inclusion) := by
  unfold admission
  split
  · exact quiet_ok _
  · split
    · exact quiet_ok _
    · rename_i sender _
      split
      · rename_i e he
        exact quiet_error (quiet_actorAt s sender e he)
      · split
        · exact quiet_ok _
        · split
          · exact quiet_ok _
          · split
            · exact quiet_ok _
            · exact quiet_ok _

theorem quiet_apply {m : Message}
    (hnonce : ∀ a, s.actor? m.sender = some a → a.nonce.toNat < 18446744073709551615)
    {chainLength : Nat} (hlen : chainLength ≤ maxLength) : Quiet (apply m chainLength s).1 := by
  unfold apply
  split
  · rename_i hnone
    exact absurd hnone (inclusionGas?_ne_none (fits_of_le hlen))
  · rename_i inclusion hinc
    have hinc := inclusionGas?_eq_some (Nat.lt_of_add_left_lt (fits_of_le hlen)) hinc
    split
    · rename_i e he
      exact quiet_error (quiet_admission s m inclusion e he)
    · exact quiet_ok _
    · rename_i sender actor available hadm
      obtain ⟨hsender, hactor, _, _, hlimit, _⟩ := admission_ok hadm
      split
      · rename_i hnone
        have hbelow := hnonce actor (actor?_of_resolve hsender hactor)
        exact absurd hnone (Word.next?_ne_none hbelow)
      · exact quiet_run _ sender available (by omega) (by omega) hlimit

theorem quiet_reward (miner : Address) (penalty gasReward : TokenAmount) (tickets : Int64)
    (s : Sandbox) : Quiet (reward miner penalty gasReward tickets s).1 := by
  unfold reward
  simp only
  split
  · rename_i e he
    exact quiet_error (quiet_locate _ miner e he)
  · split
    · rename_i e he
      exact quiet_error (quiet_credit _ _ _ e he)
    · exact quiet_ok _

theorem quiet_setActorState (s : Sandbox) (address : Address) (balance : TokenAmount) (head : Cid) :
    Quiet (s.setActorState address balance head) := by
  unfold setActorState
  split
  · exact quiet_error rfl
  · rename_i id _
    cases ha : s.actorAt id with
    | error e => exact quiet_error (quiet_actorAt s id e ha)
    | ok a => exact quiet_ok _

theorem quiet_createActor (s : Sandbox) (code : Cid) (address : Address) (balance : TokenAmount)
    (head : Cid) : Quiet (s.createActor code address balance head) := by
  unfold createActor
  split
  · exact quiet_error rfl
  · cases hins : s.insertActor address { code, head, nonce := 0, balance } with
    | error e =>
      simp only [hins, bind, Except.bind]
      exact quiet_error (quiet_insertActor _ _ _ e hins)
    | ok r =>
      simp only [hins, bind, Except.bind]
      exact quiet_ok _

theorem quiet_storeGet (s : Sandbox) (cid : Cid) : Quiet (s.storeGet cid) := by
  unfold storeGet
  split
  · exact quiet_ok _
  · exact quiet_error rfl

/-- No actor has used more than some number of nonces. -/
def NoncesWithin (n : Nat) (s : Sandbox) : Prop :=
  ∀ id a, s.actors.get? id = some a → a.nonce.toNat ≤ n

namespace NoncesWithin
variable {n : Nat}

theorem at_address (hs : s.NoncesWithin n) {address : Address} (h : s.actor? address = some a) :
    a.nonce.toNat ≤ n := by
  obtain ⟨id, _, ha⟩ := Option.bind_eq_some_iff.mp h
  exact hs id a ha

theorem mono (hs : s.NoncesWithin n) {k : Nat} (h : n ≤ k) : s.NoncesWithin k :=
  fun id a ha => Nat.le_trans (hs id a ha) h

theorem put (hs : s.NoncesWithin n) {b : Actor} (hb : b.nonce.toNat ≤ n) :
    (s.putActor id b).NoncesWithin n := by
  intro i a ha
  rw [get?_putActor] at ha
  split at ha
  · rwa [← Option.some.inj ha]
  · exact hs i a ha

theorem edit (hs : s.NoncesWithin n) (h : Edit True s s') : s'.NoncesWithin n := by
  cases h with
  | put ha _ hnonce => exact hs.put (hnonce trivial ▸ hs _ _ ha)
  | insert hins _ hnonce =>
    intro i b hb
    rw [actors_of_insertActor hins] at hb
    exact hs.put (by simp [hnonce trivial]) i b hb
  | store data => exact hs
  | move rewardPool burnt _ => exact hs
  | tick lastCron => exact hs

theorem changes (hs : s.NoncesWithin n) (h : Changes s s') : s'.NoncesWithin n := by
  induction h with
  | refl => exact hs
  | tail _ hedit ih => exact ih.edit hedit

/-- A message uses up one nonce at most. -/
theorem apply (hs : s.NoncesWithin n) (m : Message) (chainLength : Nat) :
    (apply m chainLength s).2.NoncesWithin (n + 1) := by
  have hs' := hs.mono (Nat.le_succ n)
  rcases apply_cases m chainLength s with
    ⟨r, _, h⟩ | ⟨inclusion, sender, actor, available, nonce, _, hadm, hnext, h⟩ <;> rw [h]
  · exact hs'
  · obtain ⟨_, hactor, _⟩ := admission_ok hadm
    have hle := hs sender actor hactor
    have hnonce := Word.next?_eq_some hnext
    have hused : (s.putActor sender { actor with nonce }).NoncesWithin (n + 1) :=
      hs'.put (by simp only; omega)
    exact hused.changes (changes_run _ sender m available inclusion)

end NoncesWithin

theorem quiet_vmCall {α : Type} (c : Vm.Call α) :
    (vm.call c).Keeps (fun _ => True) (fun _ => True) (·.isOverflow = false) := by
  cases c <;> simp only [Vm.call, vm]
  case root => exact .ofView (fun _ _ h => by cases h)
  case actor address => exact .ofView (fun _ _ h => by cases h)
  case storeGet cid => exact .ofView (fun s => quiet_storeGet s cid)
  case storePut data => exact .ofUpdate (fun _ _ h => by cases h) (fun _ _ _ _ _ => trivial)
  case setActorState address balance head =>
    exact .ofUpdate (fun s => quiet_setActorState s address balance head) (fun _ _ _ _ _ => trivial)
  case createActor code address balance head =>
    exact .ofUpdate (fun s => quiet_createActor s code address balance head)
      (fun _ _ _ _ _ => trivial)

/-- How many nonces there are before the last. -/
def maxNonces : Nat := 18446744073709551615

/-- Messages of moderate length use up one nonce each, and no overflow stops a call. -/
theorem keeps_nonces :
    machine.Keeps NoncesWithin (·.isOverflow = false) (· ≤ maxLength) (· ≤ maxNonces) where
  mono _ _ _ h hs := hs.mono h
  fewer _ _ := Nat.le_trans
  within _ _ h := h
  apply n epoch miner m chainLength hlen hn :=
    .ofStep (fun _ hs => ⟨hs.apply m chainLength,
      quiet_apply (fun _ ha => Nat.lt_of_le_of_lt (hs.at_address ha) hn) hlen⟩)
  reward n epoch miner penalty gasReward tickets :=
    .ofStep (fun s hs => ⟨hs.changes (changes_reward miner penalty gasReward tickets s),
      quiet_reward miner penalty gasReward tickets s⟩)
  cron n epoch randomness := fun s hs => ⟨hs.edit (.tick _), fun _ h => by cases h⟩
  vm n _ c := fun s hs => ⟨hs.changes (changes_vmCall c s), (quiet_vmCall c s trivial).2⟩

/-- Whatever fails in a call fails in the machine. -/
theorem keeps_kind : machine.Keeps (fun _ _ => True) (·.kind = .sut) (fun _ => True)
    (fun _ => True) where
  mono _ _ _ _ _ := trivial
  fewer _ _ _ _ := trivial
  within _ _ h := h
  apply _ _ _ _ _ _ _ := .ofStep (fun _ _ => ⟨trivial, fun _ _ => rfl⟩)
  reward _ _ _ _ _ _ := .ofStep (fun _ _ => ⟨trivial, fun _ _ => rfl⟩)
  cron _ _ _ := .ofUpdate (fun _ _ _ => rfl) (fun _ _ _ _ _ => trivial)
  vm _ α c := by
    cases c <;> simp only [Vm.call, machine, vm]
    case root | actor | storeGet => exact .ofView (fun _ _ _ => rfl)
    case storePut | setActorState | createActor =>
      exact .ofUpdate (fun _ _ _ => rfl) (fun _ _ _ _ _ => trivial)

end Sandbox
end Conformance
