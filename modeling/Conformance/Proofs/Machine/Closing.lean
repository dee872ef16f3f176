import Conformance.Proofs.Machine.Kept
import Conformance.Proofs.Machine.TipSet

namespace Conformance

namespace Op
variable {σ α β : Type} {s s' : σ}

theorem of_bind_ok {op : Op σ α} {f : α → Op σ β} {y : β} (h : (op >>= f) s = (.ok y, s')) :
    ∃ x t, op s = (.ok x, t) ∧ f x t = (.ok y, s') := by
  rcases hop : op s with ⟨e | x, t⟩
  · rw [bind_error hop] at h
    cases h
  · rw [bind_ok hop] at h
    exact ⟨x, t, rfl, h⟩

theorem of_within_ok {op : Op σ α} {context : String} {x : α}
    (h : op.within context s = (.ok x, s')) : op s = (.ok x, s') := by
  unfold within at h
  rcases hop : op s with ⟨e | y, t⟩ <;> rw [hop] at h
  · cases h
  · exact h

theorem of_pure_ok {x y : α} (h : (pure x : Op σ α) s = (.ok y, s')) : x = y ∧ s = s' := by
  obtain ⟨hx, rfl⟩ := Prod.mk.inj h
  exact ⟨Except.ok.inj hx, rfl⟩

end Op

namespace Machine
variable {σ : Type}

open TipSet

/-- The end of a block: what its messages came to, the state they left, and the state after the
block was closed. -/
structure Closing (σ : Type) where
  block : Block
  outcomes : List Outcome
  before : σ
  after : σ

namespace Closing

def penalty (c : Closing σ) : TokenAmount := (c.outcomes.map Outcome.penalty).sum

def gasReward (c : Closing σ) : TokenAmount := (c.outcomes.map Outcome.reward).sum

end Closing

/-- The blocks of a tip-set are closed one after another: what is kept of a block is applied in the
state that the block before it left, and the block is closed with what that came to. -/
inductive Closes (m : Machine σ) (epoch : Int64) (kept : List Entry) :
    List (Block × Nat) → σ → List (Closing σ) → σ → Prop
  | nil (s : σ) : Closes m epoch kept [] s [] s
  | cons {b : Block × Nat} {bs : List (Block × Nat)} {s s' : σ} {c : Closing σ}
      {cs : List (Closing σ)} (hblock : c.block = b.1)
      (hmessages : (kept.filter (fun e => e.block = b.2)).mapM (m.applyOnce epoch b.1.miner) s =
        (.ok c.outcomes, c.before))
      (hclose : m.reward epoch b.1.miner c.penalty c.gasReward b.1.tickets c.before =
        (.ok (), c.after))
      (hrest : Closes m epoch kept bs c.after cs s') :
    Closes m epoch kept (b :: bs) s (c :: cs) s'

theorem Closes.blocks {m : Machine σ} {epoch : Int64} {kept : List Entry}
    {bs : List (Block × Nat)} {s s' : σ} {cs : List (Closing σ)}
    (h : m.Closes epoch kept bs s cs s') : cs.map Closing.block = bs.map Prod.fst := by
  induction h with
  | nil => rfl
  | cons hblock _ _ _ ih => rw [List.map_cons, List.map_cons, hblock, ih]

variable (m : Machine σ) {epoch : Int64} {s s' : σ}

/-- The first of several messages that came to outcomes, and the others after it. -/
theorem messages_cons {miner : Address} {e : Entry} {es : List Entry} {outcomes : List Outcome}
    (h : (e :: es).mapM (m.applyOnce epoch miner) s = (.ok outcomes, s')) :
    ∃ o os t, outcomes = o :: os ∧ m.apply epoch miner e.message e.length s = (.ok o, t) ∧
      es.mapM (m.applyOnce epoch miner) t = (.ok os, s') := by
  rw [List.mapM_cons] at h
  obtain ⟨o, t, hfirst, h⟩ := Op.of_bind_ok h
  obtain ⟨os, u, hrest, h⟩ := Op.of_bind_ok h
  obtain ⟨rfl, rfl⟩ := Op.of_pure_ok h
  exact ⟨o, os, t, rfl, Op.of_within_ok hfirst, hrest⟩

/-- One block that succeeds. -/
theorem closing_of_applyKept {kept : List Entry} {b : Block × Nat} {outcomes : List Outcome}
    (h : m.applyKept epoch kept b s = (.ok outcomes, s')) : ∃ c : Closing σ,
      c.block = b.1 ∧ c.outcomes = outcomes ∧ c.after = s' ∧
      (kept.filter (fun e => e.block = b.2)).mapM (m.applyOnce epoch b.1.miner) s =
        (.ok c.outcomes, c.before) ∧
      m.reward epoch b.1.miner c.penalty c.gasReward b.1.tickets c.before = (.ok (), c.after) := by
  unfold applyKept at h
  obtain ⟨found, t, hmessages, h⟩ := Op.of_bind_ok h
  obtain ⟨_, u, hclose, h⟩ := Op.of_bind_ok h
  obtain ⟨rfl, rfl⟩ := Op.of_pure_ok h
  exact ⟨⟨b.1, found, t, u⟩, rfl, rfl, rfl, hmessages, Op.of_within_ok hclose⟩

theorem closes_of_mapM {kept : List Entry} {bs : List (Block × Nat)}
    {found : List (List Outcome)} (h : bs.mapM (m.applyKept epoch kept) s = (.ok found, s')) :
    ∃ cs, m.Closes epoch kept bs s cs s' ∧ cs.map Closing.outcomes = found := by
  induction bs generalizing s found with
  | nil =>
    obtain ⟨rfl, rfl⟩ := Op.of_pure_ok h
    exact ⟨[], .nil s, rfl⟩
  | cons b bs ih =>
    rw [List.mapM_cons] at h
    obtain ⟨outcomes, t, hb, h⟩ := Op.of_bind_ok h
    obtain ⟨rest, u, hbs, h⟩ := Op.of_bind_ok h
    obtain ⟨rfl, rfl⟩ := Op.of_pure_ok h
    obtain ⟨c, hblock, houtcomes, rfl, hmessages, hclose⟩ := m.closing_of_applyKept hb
    obtain ⟨cs, hcs, hrest⟩ := ih hbs
    exact ⟨c :: cs, .cons hblock hmessages hclose hcs, by rw [List.map_cons, houtcomes, hrest]⟩

/-- A walk that succeeds closes its blocks and ticks, and its receipts are those of the messages that
occur first. -/
theorem closes_of_applyTipSet {blocks : List Block} {randomness : Randomness}
    {receipts : List Receipt}
    (h : m.binding.applyTipSet blocks epoch randomness s = (.ok receipts, s')) :
    ∃ cs t, m.Closes epoch (firsts (entries blocks)) blocks.zipIdx s cs t ∧
      m.cron epoch randomness t = (.ok (), s') ∧
      receipts = cs.flatMap (fun c => c.outcomes.map Outcome.receipt) := by
  change m.applyTipSet blocks epoch randomness s = _ at h
  unfold applyTipSet at h
  obtain ⟨tally, t, hwalk, h⟩ := Op.of_bind_ok h
  obtain ⟨_, u, hcron, h⟩ := Op.of_bind_ok h
  obtain ⟨rfl, rfl⟩ := Op.of_pure_ok h
  have hreceipts : (Tally.receipts <$> blocks.zipIdx.foldlM (m.applyBlock epoch) {}) s =
      (.ok tally.receipts, t) := by
    rw [map_eq_pure_bind, Op.bind_ok hwalk]
    rfl
  rw [m.foldlM_applyBlock, ← TipSet.entries, ← firsts_eq_unseen] at hreceipts
  obtain ⟨found, v, hfound, hv⟩ := Op.of_bind_ok hreceipts
  obtain ⟨hall, rfl⟩ := Op.of_pure_ok hv
  obtain ⟨cs, hcs, rfl⟩ := m.closes_of_mapM hfound
  refine ⟨cs, v, hcs, Op.of_within_ok hcron, ?_⟩
  rw [← hall, List.nil_append, List.map_flatten, List.map_map, List.flatMap_def]
  rfl

end Machine
end Conformance
