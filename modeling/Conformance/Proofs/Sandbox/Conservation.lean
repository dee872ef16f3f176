import Mathlib.Algebra.GroupWithZero.Nat
import Conformance.Proofs.Sandbox.Reached

namespace Conformance

namespace SortedMap
variable {κ α : Type} [MapKey κ] [DecidableEq κ]

open MapKey (rank)

omit [MapKey κ] in
theorem find?_eq_none {k : κ} {es : List (κ × α)} (h : ∀ e ∈ es, e.1 ≠ k) : find? k es = none := by
  induction es with
  | nil => rfl
  | cons e es ih =>
    rw [find?, if_neg (h e (by simp)), ih (fun d hd => h d (List.mem_cons_of_mem _ hd))]

theorem sum_insertEntry (f : α → Nat) (k : κ) (v : α) {es : List (κ × α)}
    (h : es.Pairwise (fun a b => rank a.1 < rank b.1)) :
    ((insertEntry k v es).map (fun e => f e.2)).sum + (find? k es).elim 0 f =
      (es.map (fun e => f e.2)).sum + f v := by
  induction es with
  | nil => simp [insertEntry, find?]
  | cons e es ih =>
    rw [List.pairwise_cons] at h
    unfold insertEntry
    split
    · rename_i hk
      simp only [find?, hk, ↓reduceIte, List.map_cons, List.sum_cons, Option.elim_some]
      omega
    · rename_i hk
      split
      · rename_i hlt
        have hnone : find? k (e :: es) = none := by
          refine find?_eq_none (fun d hd heq => ?_)
          rcases List.mem_cons.mp hd with rfl | hd
          · exact hk heq
          · have := List.lt_trans hlt (h.1 d hd)
            rw [heq] at this
            exact List.lt_irrefl _ this
        rw [hnone]
        simp only [List.map_cons, List.sum_cons, Option.elim_none]
        omega
      · have := ih h.2
        simp only [find?, hk, ↓reduceIte, List.map_cons, List.sum_cons]
        omega

/-- An insertion adds the measure of the new value and takes away that of the value it replaces. -/
theorem sum_insert (f : α → Nat) (m : SortedMap κ α) (k : κ) (v : α) :
    ((m.insert k v).values.map f).sum + (m.get? k).elim 0 f = (m.values.map f).sum + f v := by
  have := sum_insertEntry f k v m.ascending
  simpa [insert, values, get?, Function.comp_def] using this

end SortedMap

namespace Sandbox

/-- All tokens: what actors own, what is burnt, and what is held for miners. -/
def total (s : Sandbox) : TokenAmount := s.balances + s.burnt + s.rewardPool

variable {s s' : Sandbox} {id : UInt64} {a : Actor}

theorem balances_eq_sum (s : Sandbox) : s.balances = (s.actors.values.map Actor.balance).sum := by
  rw [balances, List.sum_eq_foldr]

theorem total_put {b : Actor} (ha : s.actors.get? id = some a) :
    (s.putActor id b).total + a.balance = s.total + b.balance := by
  have := SortedMap.sum_insert Actor.balance s.actors id b
  simp only [ha, Option.elim_some] at this
  simp only [total, balances_eq_sum, putActor]
  lia

theorem total_insertActor (hs : Sound s) {address : Address}
    (h : s.insertActor address a = .ok (id, s')) : s'.total = s.total + a.balance := by
  have hnone := hs.vacant h
  obtain ⟨_, _, after, _, rfl⟩ := insertActor_ok h
  have := SortedMap.sum_insert Actor.balance s.actors id a
  simp only [hnone, Option.elim_none] at this
  simp only [total, balances_eq_sum]
  lia

theorem total_locate (hs : Sound s) {address : Address} (h : s.locate address = .ok (id, s')) :
    s'.total = s.total := by
  rcases locate_cases h with ⟨rfl, _⟩ | hins
  · rfl
  · exact total_insertActor hs hins

theorem total_credit {amount : TokenAmount} (h : s.credit id amount = .ok s') :
    s'.total = s.total + amount := by
  obtain ⟨a, ha, rfl⟩ := credit_ok h
  have := total_put (b := { a with balance := a.balance + amount }) ha
  dsimp only at this
  lia

theorem total_debit {amount : TokenAmount} {uncovered : Machine.Error}
    (h : s.debit id amount uncovered = .ok s') : s'.total + amount = s.total := by
  obtain ⟨a, ha, hle, rfl⟩ := debit_ok h
  have := total_put (b := { a with balance := a.balance - amount }) ha
  dsimp only at this
  lia

/-- Sender and receiver may be the same actor. -/
theorem total_transfer {sender receiver : UInt64} {value : TokenAmount}
    (h : s.transfer sender receiver value = (.ok (), s')) : s'.total = s.total := by
  rcases transfer_cases s sender receiver value with
    ⟨e, he⟩ | ⟨s₁, hd, ⟨e, he⟩ | ⟨s₂, hc, he⟩⟩
  · simp [he] at h
  · simp [he] at h
  · rw [he] at h
    obtain rfl : s₂ = s' := by simpa using h
    have := total_debit hd
    have := total_credit hc
    lia

theorem total_execute (hs : Sound s) {sender : UInt64} {m : Message} {available : TokenAmount}
    {gasLeft : Int64} {r : ExitCode × Int64}
    (h : s.execute sender m available gasLeft = (.ok r, s')) : s'.total = s.total := by
  rcases execute_cases s sender m available gasLeft with
    ⟨code, gas, _, he⟩ | ⟨e, _, he⟩ | ⟨s₁, receiver, gas, hloc, _, he⟩ <;> rw [he] at h
  · rw [(Prod.mk.inj h).2]
  · cases h
  · rcases ht : s₁.transfer sender receiver m.value with ⟨_ | _, s₂⟩
    · simp [ht, Except.map] at h
    · simp only [ht, Except.map, Prod.mk.injEq] at h
      obtain ⟨_, rfl⟩ := h
      rw [total_transfer ht, total_locate hs hloc]

theorem total_settle {sender : UInt64} {m : Message} {code : ExitCode} {gasUsed : Int64}
    {o : Outcome} (h : s.settle sender m code gasUsed = (.ok o, s')) : s'.total = s.total := by
  rcases settle_cases s sender m code gasUsed with ⟨e, he⟩ | ⟨s₁, burn, reward, o', hd, _, he⟩
  · simp [he] at h
  · rw [he] at h
    simp only [Prod.mk.injEq] at h
    obtain ⟨_, rfl⟩ := h
    have := total_debit hd
    simp only [total, balances] at this ⊢
    lia

theorem total_run (hs : Sound s) {sender : UInt64} {m : Message} {available : TokenAmount}
    {inclusion : Int64} {o : Outcome} (h : s.run sender m available inclusion = (.ok o, s')) :
    s'.total = s.total := by
  rcases run_cases s sender m available inclusion with
    ⟨e, he⟩ | ⟨gasLeft, _, ⟨e, he⟩ | ⟨code, gas, s₁, total, hex, _, he⟩⟩
  · simp [he] at h
  · simp [he] at h
  · rw [he] at h
    rw [total_settle h, total_execute hs hex]

/-- A message only moves tokens, whether it is rejected, fails or succeeds. -/
theorem total_apply (hs : Sound s) {m : Message} {chainLength : Nat} {o : Outcome}
    (h : apply m chainLength s = (.ok o, s')) : s'.total = s.total := by
  rcases apply_cases m chainLength s with
    ⟨r, _, he⟩ | ⟨inclusion, sender, actor, available, nonce, _, hadm, _, he⟩
  · rw [he] at h
    simp_all
  · obtain ⟨_, hactor, _⟩ := admission_ok hadm
    rw [he] at h
    have := total_put (b := { actor with nonce }) hactor
    rw [total_run (hs.put (b := { actor with nonce }) hactor rfl) h]
    dsimp only at this
    lia

/-- What leaves the pool and is not burnt goes to the miner; the tickets are new. -/
theorem total_reward (hs : Sound s) {miner : Address} {penalty gasReward : TokenAmount}
    {tickets : Int64} (h : reward miner penalty gasReward tickets s = (.ok (), s')) :
    s'.total = s.total + blockReward tickets := by
  rcases reward_cases miner penalty gasReward tickets s with
    ⟨e, he⟩ | ⟨id, s₁, hloc, ⟨e, he⟩ | ⟨s₂, hc, he⟩⟩
  · simp [he] at h
  · simp [he] at h
  · rw [he] at h
    obtain rfl : s₂ = s' := by simpa using h
    have hmid := total_locate (hs.move _ _) hloc
    have hend := total_credit hc
    have hpaid := Nat.min_le_right gasReward s.rewardPool
    have hfine := Nat.min_le_right penalty (min gasReward s.rewardPool + blockReward tickets)
    simp only [total, balances] at hmid hend ⊢
    lia

/-- What a call that succeeds adds to the total. -/
def gain (s : Sandbox) : {α : Type} → Machine.Call α → Int
  | _, .vm (.createActor _ _ balance _) => balance
  | _, .vm (.setActorState address balance _) =>
    (balance : Int) - ((s.actor? address).elim 0 Actor.balance : Nat)
  | _, .reward _ _ _ _ tickets => (ticketReward : Int) * max tickets.toInt 0
  | _, _ => 0

theorem total_setActorState {address : Address} {balance : TokenAmount} {head : Cid}
    (h : s.setActorState address balance head = .ok (a, s')) :
    s'.total + (s.actor? address).elim 0 Actor.balance = s.total + balance := by
  obtain ⟨id, b, hid, hb, rfl, rfl⟩ := setActorState_ok h
  simp only [actor?, hid, Option.bind_some, hb, Option.elim_some]
  exact total_put hb

theorem total_vmCall (hs : Sound s) {α : Type} (c : Vm.Call α) {x : α}
    (h : vm.call c s = (.ok x, s')) : (s'.total : Int) = s.total + gain s (.vm c) := by
  cases c <;> simp only [Vm.call, vm] at h
  case root | storeGet | actor =>
    obtain ⟨_, rfl⟩ := Op.ofView_ok h
    simp [gain]
  case storePut data =>
    have := Op.ofUpdate_ok h
    simp only [storePut, Except.ok.injEq, Prod.mk.injEq] at this
    obtain ⟨_, rfl⟩ := this
    simp [gain, total, balances]
  case setActorState address balance head =>
    have := total_setActorState (Op.ofUpdate_ok h)
    simp only [gain]
    lia
  case createActor code address balance head =>
    obtain ⟨_, hx, id, _, hins⟩ := createActor_ok (Op.ofUpdate_ok h)
    have := total_insertActor hs hins
    simp only [hx] at this
    simp only [gain]
    lia

/-- Every call that succeeds adds its gain and nothing else. -/
theorem total_call (hs : Sound s) {α : Type} (c : Machine.Call α) {x : α}
    (h : machine.call c s = (.ok x, s')) : (s'.total : Int) = s.total + gain s c := by
  cases c with
  | vm c => exact total_vmCall hs c h
  | apply epoch miner m chainLength =>
    simp only [Machine.call, machine] at h
    simp [gain, total_apply hs (Op.ofStep_ok h)]
  | reward epoch miner penalty gasReward tickets =>
    simp only [Machine.call, machine] at h
    have := total_reward hs (Op.ofStep_ok h)
    have := Int.toNat_eq_max tickets.toInt
    simp only [gain, blockReward] at *
    lia
  | cron epoch randomness =>
    simp only [Machine.call, machine] at h
    have := Op.ofUpdate_ok h
    simp only [Except.ok.injEq, Prod.mk.injEq] at this
    obtain ⟨_, rfl⟩ := this
    simp [gain, total, balances, cron]

/-- Runs of calls that all succeed, with what they bring in together. -/
inductive Earned : Sandbox → Int → Prop
  | fresh : Earned {} 0
  | call {s s' : Sandbox} {g : Int} {α : Type} {x : α} (h : Earned s g) (c : Machine.Call α)
      (hc : machine.call c s = (.ok x, s')) : Earned s' (g + gain s c)

theorem Earned.sound {g : Int} (h : Earned s g) : Sound s := by
  induction h with
  | fresh => exact sound_fresh
  | @call s s' _ _ x _ c hc ih =>
    have hedits : Edits s (machine.call c s).2 := edits_call c s
    rw [hc] at hedits
    exact ih.edits hedits

/-- The total is what the calls of a run have brought in, and so is every further change of it. -/
theorem total_of_earned {g : Int} (h : Earned s g) :
    (s.total : Int) = g ∧
      ∀ {α : Type} (c : Machine.Call α) {x : α} {s' : Sandbox},
        machine.call c s = (.ok x, s') → (s'.total : Int) = s.total + gain s c := by
  refine ⟨?_, fun c _ _ hc => total_call h.sound c hc⟩
  induction h with
  | fresh => rfl
  | call h c hc ih => rw [total_call h.sound c hc, ih]

/-- A message to a key that nobody has used. -/
def payment : Message where
  recipient := .bls [1]
  sender := .id 100
  nonce := 0
  value := 5
  method := Message.send
  params := []
  gasFeeCap := 2
  gasPremium := 3
  gasLimit := 2000

theorem total_of_earned_payment :
    let s := (machine.call (.vm (.createActor .account (.id 100) 10000 .emptyObject)) {}).2
    let s' := (machine.call (.apply 0 (.id 1000) payment 62) s).2
    s'.actors.keys = [100, 101] ∧ s'.burnt = 1200 ∧ s'.rewardPool = 1200 ∧
      (s'.total : Int) = 10000 := by
  intro s s'
  refine ⟨by decide +kernel, by decide +kernel, by decide +kernel, ?_⟩
  have hc : machine.call (.vm (.createActor .account (.id 100) 10000 .emptyObject)) {} =
      (.ok (⟨.account, .emptyObject, 0, 10000⟩, .id 100), s) := rfl
  have hc' : machine.call (.apply 0 (.id 1000) payment 62) s =
      (.ok ⟨⟨.ok, [], 1200⟩, 0, 1200⟩, s') := rfl
  exact (total_of_earned ((Earned.fresh.call _ hc).call _ hc')).1

end Sandbox
end Conformance
