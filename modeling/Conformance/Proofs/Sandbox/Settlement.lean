import Mathlib.Algebra.Ring.Int.Defs
import Conformance.Proofs.Machine.Closing
import Conformance.Proofs.Sandbox.Conservation
import Conformance.Proofs.Sandbox.Growth

namespace Conformance.Sandbox

open Machine (Application Closing Closes)
open TipSet (Entry entries firsts)

variable {s s' : Sandbox} {id : UInt64} {a : Actor}

theorem pool_debit {amount : TokenAmount} {uncovered : Machine.Error}
    (h : s.debit id amount uncovered = .ok s') : s'.rewardPool = s.rewardPool := by
  obtain ⟨a, _, _, rfl⟩ := debit_ok h
  rfl

theorem pool_credit {amount : TokenAmount} (h : s.credit id amount = .ok s') :
    s'.rewardPool = s.rewardPool := by
  obtain ⟨a, _, rfl⟩ := credit_ok h
  rfl

theorem pool_locate {address : Address} (h : s.locate address = .ok (id, s')) :
    s'.rewardPool = s.rewardPool := by
  rcases locate_cases h with ⟨rfl, _⟩ | hins
  · rfl
  · obtain ⟨_, _, after, _, rfl⟩ := insertActor_ok hins
    rfl

theorem pool_transfer (s : Sandbox) (sender receiver : UInt64) (value : TokenAmount) :
    (s.transfer sender receiver value).2.rewardPool = s.rewardPool := by
  rcases transfer_cases s sender receiver value with
    ⟨e, h⟩ | ⟨s₁, hd, ⟨e, h⟩ | ⟨s₂, hc, h⟩⟩ <;> rw [h]
  · exact pool_debit hd
  · exact (pool_credit hc).trans (pool_debit hd)

theorem pool_execute (s : Sandbox) (sender : UInt64) (m : Message) (available : TokenAmount)
    (gasLeft : Int64) : (s.execute sender m available gasLeft).2.rewardPool = s.rewardPool := by
  rcases execute_cases s sender m available gasLeft with
    ⟨code, gas, _, h⟩ | ⟨e, _, h⟩ | ⟨s₁, receiver, gas, hloc, _, h⟩ <;> rw [h]
  rw [pool_transfer, pool_locate hloc]

theorem pool_settle {sender : UInt64} {m : Message} {code : ExitCode} {gasUsed : Int64}
    {o : Outcome} (h : s.settle sender m code gasUsed = (.ok o, s')) :
    s'.rewardPool = s.rewardPool + o.reward := by
  rcases settle_cases s sender m code gasUsed with
    ⟨e, he⟩ | ⟨s₁, burn, reward, o', hd, ⟨_, hreward⟩, he⟩ <;> rw [he] at h
  · cases h
  · obtain ⟨ho, rfl⟩ := Prod.mk.inj h
    rw [← Except.ok.inj ho, hreward, ← pool_debit hd]

theorem pool_run {sender : UInt64} {m : Message} {available : TokenAmount} {inclusion : Int64}
    {o : Outcome} (h : s.run sender m available inclusion = (.ok o, s')) :
    s'.rewardPool = s.rewardPool + o.reward := by
  rcases run_cases s sender m available inclusion with
    ⟨e, he⟩ | ⟨gasLeft, _, ⟨e, he⟩ | ⟨code, gas, s₁, total, hex, _, he⟩⟩ <;> rw [he] at h
  · cases h
  · cases h
  · have hpool := pool_execute s sender m available gasLeft
    rw [hex] at hpool
    rw [pool_settle h, hpool]

/-- A message puts into the pool what its outcome says is owed to the miner. -/
theorem pool_apply {m : Message} {chainLength : Nat} {o : Outcome}
    (h : apply m chainLength s = (.ok o, s')) : s'.rewardPool = s.rewardPool + o.reward := by
  rcases apply_cases m chainLength s with
    ⟨r, hfree, he⟩ | ⟨inclusion, sender, actor, available, nonce, _, _, _, he⟩ <;> rw [he] at h
  · obtain ⟨hr, rfl⟩ := Prod.mk.inj h
    rw [(hfree o hr).2, Nat.add_zero]
  · have hpool := pool_run h
    exact hpool

/-- The messages of a block put their rewards into the pool, and the total stays. -/
theorem pool_messages (hs : Sound s) {epoch : Int64} {miner : Address} {es : List Entry}
    {outcomes : List Outcome}
    (h : es.mapM (machine.applyOnce epoch miner) s = (.ok outcomes, s')) :
    Sound s' ∧ s'.rewardPool = s.rewardPool + (outcomes.map Outcome.reward).sum ∧
      s'.total = s.total := by
  induction es generalizing s outcomes with
  | nil =>
    obtain ⟨rfl, rfl⟩ := Op.of_pure_ok h
    exact ⟨hs, rfl, rfl⟩
  | cons e es ih =>
    obtain ⟨o, os, t, rfl, hfirst, hrest⟩ := machine.messages_cons h
    have happly : apply e.message e.length s = (.ok o, t) := Op.ofStep_ok hfirst
    have ht : Sound t := by
      have hedits := edits_apply e.message e.length s
      rw [happly] at hedits
      exact hs.edits hedits
    obtain ⟨hu, hpool, htotal⟩ := ih ht hrest
    refine ⟨hu, ?_, htotal.trans (total_apply hs happly)⟩
    rw [hpool, pool_apply happly, List.map_cons, List.sum_cons, Nat.add_assoc]

/-- What the miner of a block gets: rewards and tickets, less the penalty as far as they cover it. -/
def payout (penalty gasReward : TokenAmount) (tickets : Int64) : TokenAmount :=
  gasReward + blockReward tickets - min penalty (gasReward + blockReward tickets)

/-- An address is credited and all other actors stay as they are. Where there was no actor, there is
an account now. -/
structure Credited (miner : Address) (amount : TokenAmount) (s s' : Sandbox) : Prop where
  paid : ∃ a, a = (s.actor? miner).getD (.account 0) ∧
    s'.actor? miner = some { a with balance := a.balance + amount }
  others : ∀ id, s'.resolve miner ≠ some id → s'.actors.get? id = s.actors.get? id

theorem resolve_insertActor {address : Address}
    (h : s.insertActor address a = .ok (id, s')) : s'.resolve address = some id := by
  have hactors := actors_of_insertActor h
  obtain ⟨_, hid, after, _, hs'⟩ := insertActor_ok h
  cases address with
  | id n =>
    simp only [Address.id?, Option.getD_some] at hid
    subst hid
    exact resolve_id_of_contains (hactors ▸ SortedMap.contains_insert_self)
  | _ =>
    subst hs'
    simp [resolve, Address.isId, SortedMap.get?_insert]

theorem resolve_locate {address : Address} (h : s.locate address = .ok (id, s')) :
    s'.resolve address = some id := by
  rcases locate_cases h with ⟨rfl, hid⟩ | hins
  · exact hid
  · exact resolve_insertActor hins

/-- The actor at a located address is the one it stood for, or a new account. -/
theorem actor_locate {address : Address} (h : s.locate address = .ok (id, s'))
    (ha : s'.actors.get? id = some a) : (s.actor? address).getD (.account 0) = a := by
  rcases locate_cases h with ⟨rfl, hid⟩ | hins
  · rw [actor?, hid, Option.bind_some, ha, Option.getD_some]
  · rw [actors_of_insertActor hins, SortedMap.get?_insert, if_pos rfl] at ha
    rw [actor?, (insertActor_ok hins).1]
    exact Option.some.inj ha

theorem others_locate {address : Address} (h : s.locate address = .ok (id, s')) {i : UInt64}
    (hi : i ≠ id) : s'.actors.get? i = s.actors.get? i := by
  rcases locate_cases h with ⟨rfl, _⟩ | hins
  · rfl
  · rw [actors_of_insertActor hins, SortedMap.get?_insert, if_neg hi.symm]

/-- A located address is credited, whether or not it had to be added for that. -/
theorem credited_of_locate {miner : Address} {amount : TokenAmount} {s₁ : Sandbox}
    (hloc : s.locate miner = .ok (id, s₁)) (hc : s₁.credit id amount = .ok s') :
    Credited miner amount s s' := by
  obtain ⟨a, ha, rfl⟩ := credit_ok hc
  have hput : Edit False s₁ (s₁.putActor id { a with balance := a.balance + amount }) :=
    .put ha rfl False.elim
  have hafter := hput.grows.resolves miner id (resolve_locate hloc)
  constructor
  case paid =>
    refine ⟨a, (actor_locate hloc ha).symm, ?_⟩
    rw [actor?, hafter, Option.bind_some, get?_putActor_self]
  case others =>
    intro i hi
    rw [hafter, ne_eq, Option.some.injEq] at hi
    rw [get?_putActor_ne _ _ (Ne.symm hi)]
    exact others_locate hloc (Ne.symm hi)

/-- A pool that holds the rewards of a block pays them in full. -/
theorem credited_reward {miner : Address} {penalty gasReward : TokenAmount} {tickets : Int64}
    (h : reward miner penalty gasReward tickets s = (.ok (), s'))
    (hpool : gasReward ≤ s.rewardPool) :
    s'.rewardPool + gasReward = s.rewardPool ∧
      Credited miner (payout penalty gasReward tickets) s s' := by
  rcases reward_cases miner penalty gasReward tickets s with
    ⟨e, he⟩ | ⟨id, s₁, hloc, ⟨e, he⟩ | ⟨s₂, hc, he⟩⟩ <;> rw [he] at h
  · cases h
  · cases h
  · obtain ⟨_, rfl⟩ := Prod.mk.inj h
    rw [Nat.min_eq_left hpool] at hloc hc
    have hlocated := pool_locate hloc
    constructor
    · rw [pool_credit hc, hlocated]
      exact Nat.sub_add_cancel hpool
    · -- Pool and fine play no part in where an actor is found.
      obtain ⟨hpaid, hothers⟩ := credited_of_locate hloc hc
      exact ⟨hpaid, hothers⟩

/-- Block by block the pool is filled and emptied again. -/
theorem settled_of_closes (hs : Sound s) {epoch : Int64} {kept : List Entry}
    {bs : List (Block × Nat)} {cs : List (Closing Sandbox)}
    (h : machine.Closes epoch kept bs s cs s') :
    s'.rewardPool = s.rewardPool ∧
      s'.total = s.total + ((bs.map Prod.fst).map (fun b => blockReward b.tickets)).sum ∧
      ∀ c ∈ cs, Credited c.block.miner (payout c.penalty c.gasReward c.block.tickets)
        c.before c.after := by
  induction h with
  | nil => exact ⟨rfl, rfl, fun _ hc => by cases hc⟩
  | @cons b bs s s' c cs hblock hmessages hclose hrest ih =>
    obtain ⟨hbefore, hpool, htotal⟩ := pool_messages hs hmessages
    have hreward : reward b.1.miner c.penalty c.gasReward b.1.tickets c.before =
        (.ok (), c.after) := Op.ofStep_ok hclose
    have hafter : Sound c.after := by
      have hedits := changes_reward b.1.miner c.penalty c.gasReward b.1.tickets c.before
      rw [hreward] at hedits
      exact hbefore.edits hedits
    have hheld : c.gasReward ≤ c.before.rewardPool := hpool ▸ Nat.le_add_left _ _
    obtain ⟨hemptied, hcredited⟩ := credited_reward hreward hheld
    obtain ⟨hpoolRest, htotalRest, hcreditedRest⟩ := ih hafter
    refine ⟨?_, ?_, List.forall_mem_cons.mpr ⟨hblock ▸ hcredited, hcreditedRest⟩⟩
    · rw [hpoolRest]
      exact Nat.add_right_cancel (hemptied.trans hpool)
    · rw [htotalRest, total_reward hbefore hreward, htotal, List.map_cons, List.map_cons,
        List.sum_cons, Nat.add_assoc]

theorem sum_blockReward (blocks : List Block) :
    ((blocks.map (fun b => blockReward b.tickets)).sum : Int) =
      ticketReward * (blocks.map (fun b => max b.tickets.toInt 0)).sum := by
  induction blocks with
  | nil => rfl
  | cons b blocks ih =>
    have hb : (blockReward b.tickets : Int) = ticketReward * max b.tickets.toInt 0 := by
      rw [blockReward, Int.natCast_mul, Int.toNat_eq_max]
    rw [List.map_cons, List.map_cons, List.sum_cons, List.sum_cons, Int.natCast_add, hb, ih,
      Int.mul_add]

/-- A tip-set that succeeds leaves the pool as it was. Its blocks were closed one after another, each
miner credited with all that its block earned and was not fined; and only tickets brought in more. -/
theorem settled_of_ran {log : List (Application Sandbox)} (hran : machine.Ran {} s log)
    {blocks : List Block} {epoch : Int64} {randomness : Randomness} {receipts : List Receipt}
    (h : machine.binding.applyTipSet blocks epoch randomness s = (.ok receipts, s')) :
    s'.rewardPool = s.rewardPool ∧
    (∃ cs t, machine.Closes epoch (firsts (entries blocks)) blocks.zipIdx s cs t ∧
      machine.cron epoch randomness t = (.ok (), s') ∧
      receipts = cs.flatMap (fun c => c.outcomes.map Outcome.receipt) ∧
      cs.map Closing.block = blocks ∧
      ∀ c ∈ cs, Credited c.block.miner (payout c.penalty c.gasReward c.block.tickets)
        c.before c.after) ∧
    (s'.balances + s'.burnt : Int) =
      s.balances + s.burnt + ticketReward * (blocks.map (fun b => max b.tickets.toInt 0)).sum := by
  have hs : Sound s := sound_fresh.edits (edits_of_ran hran)
  obtain ⟨cs, t, hcs, hcron, hreceipts⟩ := machine.closes_of_applyTipSet h
  obtain ⟨hpool, htotal, hcredited⟩ := settled_of_closes hs hcs
  have hblocks : blocks.zipIdx.map Prod.fst = blocks := List.zipIdx_map_fst 0 blocks
  have htick : s' = { t with lastCron := s'.lastCron } := by
    obtain ⟨_, rfl⟩ := Prod.mk.inj hcron
    rfl
  rw [hblocks] at htotal
  refine ⟨htick ▸ hpool, ⟨cs, t, hcs, hcron, hreceipts, hcs.blocks.trans hblocks, hcredited⟩, ?_⟩
  have hsum := sum_blockReward blocks
  have hbalances : s'.balances + s'.burnt = t.balances + t.burnt := htick ▸ rfl
  simp only [total] at htotal
  lia

/-- A payment to a key that nobody has used. -/
def offer : Message where
  recipient := .bls [1]
  sender := .id 100
  nonce := 0
  value := 5
  method := Message.send
  params := []
  gasFeeCap := 2
  gasPremium := 3
  gasLimit := 2000

/-- A miner that is not there yet; the payer as a miner, who repeats the payment and is fined for
one with a wrong nonce; and a miner without tickets. -/
def offers : List Block :=
  [{ bls := [offer], secp := [], miner := .bls [9], tickets := 2 },
   { bls := [offer, { offer with nonce := 5 }], secp := [], miner := .id 100, tickets := 1 },
   { bls := [], secp := [], miner := .bls [1], tickets := -1 }]

theorem settled_of_ran_offers : ∃ s s' receipts, machine.Ran {} s [] ∧
    machine.binding.applyTipSet offers 3 .zero s = (.ok receipts, s') ∧ receipts.length = 2 ∧
    (s'.actor? (.bls [9])).map Actor.balance = some 3248 ∧ s'.rewardPool = 0 ∧
    (s'.balances + s'.burnt : Int) = s.balances + s.burnt + 3000 := by
  let s := (machine.call (.vm (.createActor .account (.bls [7]) 100000 .emptyObject)) {}).2
  have hran : machine.Ran {} s [] :=
    Machine.Ran.start.call (.vm (.createActor .account (.bls [7]) 100000 .emptyObject))
  have hout : ∀ out, out = machine.binding.applyTipSet offers 3 .zero s →
      out.1.toOption.map List.length = some 2 ∧
        (out.2.actor? (.bls [9])).map Actor.balance = some 3248 ∧ s.rewardPool = 0 := by
    rintro _ rfl
    decide +kernel
  rcases hrun : machine.binding.applyTipSet offers 3 .zero s with ⟨e | receipts, s'⟩
  · cases (hout _ hrun.symm).1
  · obtain ⟨hlength, hminer, hempty⟩ := hout _ hrun.symm
    obtain ⟨hpool, _, hsum⟩ := settled_of_ran hran hrun
    exact ⟨s, s', receipts, hran, hrun, Option.some.inj hlength, hminer, hpool.trans hempty, hsum⟩

end Conformance.Sandbox
