import Mathlib.Algebra.GroupWithZero.Nat
import Mathlib.Data.List.Basic
import Conformance.Machine.Walk

namespace Conformance

namespace TipSet

/-- A message where it stands in a tip-set, with the length it is charged for. -/
structure Entry where
  block : Nat
  message : Message
  length : Nat
  deriving DecidableEq, Repr

def Entry.cid (e : Entry) : Cid := e.message.cid

/-- The messages of a block and its number: those signed together, then those signed each. A message
is charged for the length of the form in which it stands there. -/
def ofBlock (b : Block × Nat) : List Entry :=
  b.1.bls.map (fun m => ⟨b.2, m, m.chainLength⟩) ++
    b.1.secp.map (fun m => ⟨b.2, m.message, m.chainLength⟩)

theorem map_entries (b : Block) (n : Nat) :
    b.entries.map (fun e => (⟨n, e.1, e.2⟩ : Entry)) = ofBlock (b, n) := by
  simp only [Block.entries, ofBlock, List.map_append, List.map_map, Function.comp_def]

def entries (blocks : List Block) : List Entry := blocks.zipIdx.flatMap ofBlock

/-- The entries whose content no earlier entry has. -/
def firsts (all : List Entry) : List Entry :=
  (all.zipIdx.filter (fun e => e.1.cid ∉ (all.take e.2).map Entry.cid)).map Prod.fst

/-- The entries with new content when some has been seen already. -/
def unseen (seen : List Cid) : List Entry → List Entry
  | [] => []
  | e :: es => if e.cid ∈ seen then unseen seen es else e :: unseen (seen ++ [e.cid]) es

theorem unseen_congr {seen seen' : List Cid} (h : ∀ c, c ∈ seen ↔ c ∈ seen') (es : List Entry) :
    unseen seen es = unseen seen' es := by
  induction es generalizing seen seen' with
  | nil => rfl
  | cons e es ih =>
    have hnext : ∀ c, c ∈ seen ++ [e.cid] ↔ c ∈ seen' ++ [e.cid] := by simp [h]
    simp only [unseen, h, ih h, ih hnext]

theorem unseen_append (seen : List Cid) (es ds : List Entry) :
    unseen seen (es ++ ds) =
      unseen seen es ++ unseen (seen ++ (unseen seen es).map Entry.cid) ds := by
  induction es generalizing seen with
  | nil => simp [unseen]
  | cons e es ih =>
    simp only [List.cons_append, unseen]
    split
    · exact ih seen
    · simp [ih]

theorem unseen_subset (seen : List Cid) (es : List Entry) : unseen seen es ⊆ es := by
  induction es generalizing seen with
  | nil => simp [unseen]
  | cons e es ih =>
    unfold unseen
    split
    · exact List.subset_cons_of_subset e (ih seen)
    · exact List.cons_subset_cons e (ih _)

/-- Striking out by position strikes out what has been seen before. -/
theorem filter_zipIdx_eq_unseen (done es : List Entry) :
    ((es.zipIdx done.length).filter
      (fun e => e.1.cid ∉ ((done ++ es).take e.2).map Entry.cid)).map Prod.fst =
      unseen (done.map Entry.cid) es := by
  induction es generalizing done with
  | nil => rfl
  | cons e es ih =>
    have hnext := ih (done ++ [e])
    simp only [List.length_append, List.length_singleton, List.append_assoc,
      List.singleton_append, List.map_append, List.map_singleton] at hnext
    rw [List.zipIdx_cons, List.filter_cons]
    simp only [List.take_left, unseen]
    by_cases he : e.cid ∈ done.map Entry.cid
    · have hsame : ∀ c, c ∈ done.map Entry.cid ++ [e.cid] ↔ c ∈ done.map Entry.cid := by
        intro c
        constructor
        · intro hc
          rcases List.mem_append.mp hc with hc | hc
          · exact hc
          · rwa [List.mem_singleton.mp hc]
        · exact fun hc => List.mem_append_left _ hc
      rw [if_pos he, if_neg (by simpa using he), hnext, unseen_congr hsame]
    · rw [if_neg he, if_pos (by simpa using he), List.map_cons, hnext]

theorem firsts_eq_unseen (all : List Entry) : firsts all = unseen [] all :=
  filter_zipIdx_eq_unseen [] all

/-- The number of a block's entries is the block's. -/
theorem block_of_mem_ofBlock {b : Block × Nat} {e : Entry} (h : e ∈ ofBlock b) :
    e.block = b.2 := by
  rcases List.mem_append.mp h with h | h
  all_goals
    obtain ⟨_, _, rfl⟩ := List.mem_map.mp h
    rfl

theorem le_block_of_mem {blocks : List Block} {n : Nat} {e : Entry}
    (h : e ∈ (blocks.zipIdx n).flatMap ofBlock) : n ≤ e.block := by
  obtain ⟨b, hb, he⟩ := List.mem_flatMap.mp h
  rw [block_of_mem_ofBlock he]
  exact List.le_snd_of_mem_zipIdx hb

/-- Among the entries of one block and those of others stand the entries of the block. -/
theorem filter_block_append {here later : List Entry} {n : Nat} (hhere : ∀ e ∈ here, e.block = n)
    (hlater : ∀ e ∈ later, e.block ≠ n) :
    (here ++ later).filter (fun e => e.block = n) = here := by
  have hnone : later.filter (fun e => e.block = n) = [] :=
    List.filter_eq_nil_iff.mpr (by simpa using hlater)
  rw [List.filter_append, List.filter_eq_self.mpr (by simpa using hhere), hnone, List.append_nil]

/-- What is unseen from a block on: what is unseen in the block, and then what is unseen after it. -/
theorem unseen_blocks (seen : List Cid) (block : Block) (blocks : List Block) (n : Nat) :
    let here := unseen seen (ofBlock (block, n))
    let later := unseen (seen ++ here.map Entry.cid) ((blocks.zipIdx (n + 1)).flatMap ofBlock)
    unseen seen (((block :: blocks).zipIdx n).flatMap ofBlock) = here ++ later ∧
      (∀ e ∈ here, e.block = n) ∧ ∀ e ∈ later, n < e.block := by
  refine ⟨?_, fun e he => block_of_mem_ofBlock (unseen_subset _ _ he),
    fun e he => le_block_of_mem (unseen_subset _ _ he)⟩
  rw [List.zipIdx_cons, List.flatMap_cons, unseen_append]

/-- What is unseen stands block by block. -/
theorem flatMap_filter_unseen (seen : List Cid) (blocks : List Block) (n : Nat) :
    (blocks.zipIdx n).flatMap (fun b =>
        (unseen seen ((blocks.zipIdx n).flatMap ofBlock)).filter (fun e => e.block = b.2)) =
      unseen seen ((blocks.zipIdx n).flatMap ofBlock) := by
  induction blocks generalizing n seen with
  | nil => rfl
  | cons block blocks ih =>
    obtain ⟨hall, hhere, hlater⟩ := unseen_blocks seen block blocks n
    rw [hall, List.zipIdx_cons, List.flatMap_cons,
      filter_block_append hhere (fun e he => Nat.ne_of_gt (hlater e he))]
    refine congrArg _ (Eq.trans (List.flatMap_congr fun b hb => ?_) (ih _ (n + 1)))
    have hnone : (unseen seen (ofBlock (block, n))).filter (fun e => e.block = b.2) = [] := by
      refine List.filter_eq_nil_iff.mpr (fun e he => ?_)
      have hnext := List.le_snd_of_mem_zipIdx hb
      have hblock := hhere e he
      simpa only [decide_eq_true_eq] using (by lia : e.block ≠ b.2)
    rw [List.filter_append, hnone, List.nil_append]

/-- The entries of a tip-set that occur first stand block by block. -/
theorem flatMap_filter_firsts (blocks : List Block) :
    blocks.zipIdx.flatMap (fun b =>
        (firsts (entries blocks)).filter (fun e => e.block = b.2)) = firsts (entries blocks) := by
  rw [firsts_eq_unseen]
  exact flatMap_filter_unseen [] blocks 0

end TipSet

/-- Steps that agree on the members of a list agree in a row. -/
theorem Op.mapM_congr {σ α β : Type} {as : List α} {f g : α → Op σ β}
    (h : ∀ a ∈ as, f a = g a) : as.mapM f = as.mapM g := by
  induction as with
  | nil => rfl
  | cons a as ih =>
    rw [List.mapM_cons, List.mapM_cons, h a (by simp), ih (fun b hb => h b (by simp [hb]))]

namespace Machine
variable {σ : Type} (m : Machine σ)

open TipSet

def applyOnce (epoch : Int64) (miner : Address) (e : Entry) : Op σ Outcome :=
  (m.apply epoch miner e.message e.length).within
    ("applying message " ++ e.cid.text ++ " in block " ++ Numeral.ofNat e.block)

/-- Applies what is kept of a block, then settles the block with the sums of the outcomes. -/
def applyKept (epoch : Int64) (kept : List Entry) (b : Block × Nat) : Op σ (List Outcome) := do
  let outcomes ← (kept.filter (fun e => e.block = b.2)).mapM (m.applyOnce epoch b.1.miner)
  (m.reward epoch b.1.miner (outcomes.map Outcome.penalty).sum (outcomes.map Outcome.reward).sum
    b.1.tickets).within
      ("rewarding block " ++ Numeral.ofNat b.2 ++ " miner " ++ b.1.miner.toText)
  pure outcomes

/-- What is kept of other blocks does not matter to a block. -/
theorem applyKept_append_of_ne (epoch : Int64) {here later : List Entry} {b : Block × Nat}
    (h : ∀ e ∈ here, e.block ≠ b.2) :
    m.applyKept epoch (here ++ later) b = m.applyKept epoch later b := by
  have hnone : here.filter (fun e => e.block = b.2) = [] :=
    List.filter_eq_nil_iff.mpr (by simpa using h)
  simp only [applyKept, List.filter_append, hnone, List.nil_append]

/-- Applies every message of a tip-set where it occurs first. -/
def applyFirsts (blocks : List Block) (epoch : Int64) (randomness : Randomness) :
    Op σ (List Receipt) := do
  let outcomes ← blocks.zipIdx.mapM (m.applyKept epoch (firsts (entries blocks)))
  (m.cron epoch randomness).within "end-of-tip-set cron"
  pure (outcomes.flatten.map Outcome.receipt)

/-- The tally once some entries have come to some outcomes. -/
def tallied (t : Tally) (es : List Entry) (outcomes : List Outcome) : Tally where
  seen := t.seen ++ es.map Entry.cid
  receipts := t.receipts ++ outcomes.map Outcome.receipt
  penalty := t.penalty + (outcomes.map Outcome.penalty).sum
  reward := t.reward + (outcomes.map Outcome.reward).sum

/-- The loop over the messages of a block applies those unseen and adds up what they come to. -/
theorem foldlM_applyEntry (epoch : Int64) (index : Nat) (miner : Address)
    (es : List (Message × Nat)) (t : Tally) :
    es.foldlM (m.applyEntry epoch index miner) t = (do
      let new := unseen t.seen (es.map (fun e => ⟨index, e.1, e.2⟩))
      let outcomes ← new.mapM (m.applyOnce epoch miner)
      pure (tallied t new outcomes)) := by
  induction es generalizing t with
  | nil => simp [unseen, tallied]
  | cons e es ih =>
    simp only [List.foldlM_cons, List.map_cons, unseen, Entry.cid, applyEntry]
    by_cases hseen : e.1.cid ∈ t.seen
    · simp only [hseen, ↓reduceIte, pure_bind, ih]
    · simp only [hseen, ↓reduceIte, bind_assoc, pure_bind, ih, List.mapM_cons, applyOnce, Entry.cid]
      refine bind_congr (fun o => bind_congr (fun os => ?_))
      simp [tallied, Nat.add_assoc, Entry.cid]

/-- The loop over the blocks from the `n`-th on gives the receipts of what is unseen in them. -/
theorem foldlM_applyBlock (epoch : Int64) (blocks : List Block) (n : Nat) (t : Tally) :
    Tally.receipts <$> (blocks.zipIdx n).foldlM (m.applyBlock epoch) t = (do
      let kept := unseen t.seen ((blocks.zipIdx n).flatMap ofBlock)
      let outcomes ← (blocks.zipIdx n).mapM (m.applyKept epoch kept)
      pure (t.receipts ++ outcomes.flatten.map Outcome.receipt)) := by
  induction blocks generalizing n t with
  | nil => simp
  | cons block blocks ih =>
    let here := unseen t.seen (ofBlock (block, n))
    let later := unseen (t.seen ++ here.map Entry.cid) ((blocks.zipIdx (n + 1)).flatMap ofBlock)
    obtain ⟨hkept, hhere, hlater⟩ := unseen_blocks t.seen block blocks n
    change _ = here ++ later at hkept
    have hfirst : (here ++ later).filter (fun e => e.block = n) = here :=
      filter_block_append hhere (fun e he => Nat.ne_of_gt (hlater e he))
    have hrest : (blocks.zipIdx (n + 1)).mapM (m.applyKept epoch (here ++ later)) =
        (blocks.zipIdx (n + 1)).mapM (m.applyKept epoch later) :=
      Op.mapM_congr (fun b hb => m.applyKept_append_of_ne epoch (fun e he => by
        have := List.le_snd_of_mem_zipIdx hb
        rw [hhere e he]
        omega))
    rw [hkept]
    simp only [List.zipIdx_cons, List.mapM_cons, hrest, List.foldlM_cons, map_bind, ih]
    simp only [applyBlock, applyKept, hfirst, foldlM_applyEntry, map_entries, bind_assoc, pure_bind]
    refine bind_congr (fun os => ?_)
    simp only [tallied, Nat.zero_add, List.flatten_cons, List.map_append, List.append_assoc]
    rfl

/-- The walk over a tip-set applies every message where it occurs first, and nothing else. -/
theorem applyTipSet_eq_applyFirsts (blocks : List Block) (epoch : Int64)
    (randomness : Randomness) (s : σ) :
    m.binding.applyTipSet blocks epoch randomness s =
      m.applyFirsts blocks epoch randomness s := by
  have hloop := m.foldlM_applyBlock epoch blocks 0 {}
  have hwalk : m.applyTipSet blocks epoch randomness = (do
      let receipts ← Tally.receipts <$> blocks.zipIdx.foldlM (m.applyBlock epoch) {}
      (m.cron epoch randomness).within "end-of-tip-set cron"
      pure receipts) := by
    simp only [applyTipSet, bind_map_left]
  change m.applyTipSet blocks epoch randomness s = _
  rw [hwalk, hloop]
  simp only [applyFirsts, firsts_eq_unseen, entries, bind_assoc, pure_bind, List.nil_append]

/-- What a machine can be asked for in a tip-set. -/
inductive Event
  | applied (epoch : Int64) (miner : Address) (nonce : UInt64) (length : Nat)
  | rewarded (epoch : Int64) (miner : Address) (penalty gasReward : TokenAmount) (tickets : Int64)
  | ticked (epoch : Int64)
  deriving DecidableEq, Repr

/-- A machine that writes down what it is asked for. A message is charged its length as gas; the
length is also its reward, and its nonce its penalty. -/
def scribe : Machine (List Event) where
  root := pure .emptyObject
  storeGet _ := pure []
  storePut _ := pure .emptyObject
  actor _ := pure none
  setActorState _ balance _ := pure (.account balance)
  createActor _ address balance _ := pure (.account balance, address)
  apply epoch miner m length events :=
    (.ok { receipt := { exitCode := .ok, returnValue := [], gasUsed := Int64.ofNat length }
           penalty := m.nonce.toNat
           reward := length },
      events ++ [.applied epoch miner m.nonce length])
  reward epoch miner penalty gasReward tickets events :=
    (.ok (), events ++ [.rewarded epoch miner penalty gasReward tickets])
  cron epoch _ events := (.ok (), events ++ [.ticked epoch])

/-- A payment with a nonce. -/
def payment (nonce : UInt64) : Message where
  recipient := .id 200
  sender := .id 100
  nonce := nonce
  value := 1
  method := Message.send
  params := []
  gasFeeCap := 1
  gasPremium := 1
  gasLimit := 1000000

def signedPayment (nonce : UInt64) : SignedMessage where
  message := payment nonce
  signature := { sigType := .secp256k1, bytes := [1, 2] }

/-- Payments in both pools. One is repeated in the other pool, the other in the next block and without
its signature; the last block has no messages. -/
def pools : List Block :=
  [{ bls := [payment 2], secp := [signedPayment 2, signedPayment 1], miner := .id 1, tickets := 1 },
   { bls := [payment 1], secp := [], miner := .id 2, tickets := 2 },
   { bls := [], secp := [], miner := .id 1, tickets := -1 }]

theorem firsts_pools :
    firsts (entries pools) = [⟨0, payment 2, 117⟩, ⟨0, payment 1, 136⟩] := by
  have hcid : (payment 1).cid ≠ (payment 2).cid := by decide +kernel
  have hlength : (payment 2).chainLength = 117 ∧ (signedPayment 1).chainLength = 136 := by
    decide +kernel
  have hmessage (n : UInt64) : (signedPayment n).message = payment n := rfl
  rw [firsts_eq_unseen]
  simp [entries, pools, ofBlock, unseen, Entry.cid, hmessage, hlength, hcid]

theorem applyTipSet_eq_applyFirsts_pools :
    let run := scribe.binding.applyTipSet pools 5 .zero []
    run.1.toOption.map (List.map Receipt.gasUsed) = some [117, 136] ∧
    run.2 = [.applied 5 (.id 1) 2 117, .applied 5 (.id 1) 1 136, .rewarded 5 (.id 1) 3 253 1,
      .rewarded 5 (.id 2) 0 0 2, .rewarded 5 (.id 1) 0 0 (-1), .ticked 5] := by
  intro run
  have hrun : run = scribe.applyFirsts pools 5 .zero [] :=
    scribe.applyTipSet_eq_applyFirsts pools 5 .zero []
  rw [hrun, applyFirsts, firsts_pools]
  decide +kernel

end Machine
end Conformance
