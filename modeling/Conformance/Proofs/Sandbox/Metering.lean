import Mathlib.Data.List.Forall2
import Conformance.Proofs.Sandbox.Application

namespace Conformance.Sandbox

open Machine (Application Closing Closes)
open TipSet (Entry entries firsts)

variable {s s' start : Sandbox} {e : Entry} {r : Receipt}

/-- What a receipt has for a message that was applied in a state. -/
def Metered (s : Sandbox) (e : Entry) (r : Receipt) : Prop :=
  match s.rejection? e.message (38 + e.length) with
  | some code => r.exitCode = code ∧ r.gasUsed = 0
  | none => (38 + e.length : Nat) ≤ r.gasUsed.toInt ∧ r.gasUsed ≤ e.message.gasLimit

/-- There is no gas below zero, and no more than the limit unless the limit is negative itself. -/
theorem Metered.bounds (h : Metered s e r) :
    0 ≤ r.gasUsed ∧ (r.gasUsed = 0 ∨ r.gasUsed ≤ e.message.gasLimit) := by
  unfold Metered at h
  split at h
  · rw [h.2]
    exact ⟨by decide, .inl rfl⟩
  · have hleast : 0 ≤ r.gasUsed.toInt := Int.le_trans (Int.natCast_nonneg _) h.1
    exact ⟨Int64.le_iff_toInt_le.mpr hleast, .inr h.2⟩

theorem metered_of_apply (hs : Sound s) (hlen : e.length ≤ maxLength) {o : Outcome}
    (h : apply e.message e.length s = (.ok o, s')) : Metered s e o.receipt := by
  unfold Metered
  cases hreason : s.rejection? e.message (38 + e.length) with
  | some code =>
    cases (apply_of_rejected hs hlen hreason).symm.trans h
    exact ⟨rfl, rfl⟩
  | none =>
    obtain ⟨_, _, gas, _, _, happlied⟩ := applied_of_apply hs hlen hreason h
    rw [Int64.le_iff_toInt_le, happlied.gasUsed]
    exact ⟨Int.ofNat_le.mpr happlied.least, happlied.most⟩

/-- A receipt of a message that was applied after some run. -/
def Receipted (start : Sandbox) (e : Entry) (r : Receipt) : Prop :=
  ∃ s s' o log, machine.Ran start s log ∧ apply e.message e.length s = (.ok o, s') ∧
    o.receipt = r ∧ Metered s e r

section Walk
variable (hstart : Sound start) {log : List (Application Sandbox)} (hran : machine.Ran start s log)
  {epoch : Int64}
include hstart hran

/-- The messages of a block have a receipt each. -/
theorem receipted_of_messages {miner : Address} {es : List Entry}
    (hlen : ∀ e ∈ es, e.length ≤ maxLength) {outcomes : List Outcome}
    (h : es.mapM (machine.applyOnce epoch miner) s = (.ok outcomes, s')) :
    (∃ log', machine.Ran start s' log') ∧
      List.Forall₂ (Receipted start) es (outcomes.map Outcome.receipt) := by
  induction es generalizing s log outcomes with
  | nil =>
    obtain ⟨rfl, rfl⟩ := Op.of_pure_ok h
    exact ⟨⟨log, hran⟩, .nil⟩
  | cons e es ih =>
    obtain ⟨hshort, hlen⟩ := List.forall_mem_cons.mp hlen
    obtain ⟨o, os, t, rfl, hfirst, hrest⟩ := machine.messages_cons h
    have hs : Sound s := hstart.edits (edits_of_ran hran)
    have happly : apply e.message e.length s = (.ok o, t) := Op.ofStep_ok hfirst
    obtain ⟨log', hnext⟩ := hran.called (.apply epoch miner e.message e.length) hfirst
    obtain ⟨hafter, hreceipts⟩ := ih hnext hlen hrest
    exact ⟨hafter, .cons ⟨s, t, o, log, hran, happly, rfl, metered_of_apply hs hshort happly⟩
      hreceipts⟩

/-- Block by block the receipts are those of what is kept. -/
theorem receipted_of_closes {kept : List Entry} (hlen : ∀ e ∈ kept, e.length ≤ maxLength)
    {bs : List (Block × Nat)} {cs : List (Closing Sandbox)}
    (h : machine.Closes epoch kept bs s cs s') :
    List.Forall₂ (Receipted start) (bs.flatMap (fun b => kept.filter (fun e => e.block = b.2)))
      (cs.flatMap (fun c => c.outcomes.map Outcome.receipt)) := by
  induction h generalizing log with
  | nil => exact .nil
  | @cons b bs s s' c cs hblock hmessages hclose hrest ih =>
    obtain ⟨⟨_, hbefore⟩, hreceipts⟩ := receipted_of_messages hstart hran
      (fun e he => hlen e (List.mem_of_mem_filter he)) hmessages
    obtain ⟨_, hafter⟩ := hbefore.called
      (.reward epoch b.1.miner c.penalty c.gasReward b.1.tickets) hclose
    exact List.rel_append hreceipts (ih hafter)

end Walk

/-- The receipts of a tip-set are those of the messages that occur first in it. -/
theorem receipted_of_tipSet (hs : Sound s) {blocks : List Block}
    (hlen : ∀ e ∈ entries blocks, e.length ≤ maxLength) {epoch : Int64} {randomness : Randomness}
    {receipts : List Receipt}
    (h : machine.binding.applyTipSet blocks epoch randomness s = (.ok receipts, s')) :
    List.Forall₂ (Receipted s) (firsts (entries blocks)) receipts := by
  obtain ⟨cs, t, hcs, _, rfl⟩ := machine.closes_of_applyTipSet h
  rw [← TipSet.flatMap_filter_firsts blocks]
  refine receipted_of_closes hs .start (fun e he => hlen e ?_) hcs
  rw [TipSet.firsts_eq_unseen] at he
  exact TipSet.unseen_subset _ _ he

/-- So none of them has negative gas. -/
theorem nonneg_of_receipted {es : List Entry} {receipts : List Receipt}
    (h : List.Forall₂ (Receipted start) es receipts) : ∀ r ∈ receipts, 0 ≤ r.gasUsed := by
  induction h with
  | nil => exact fun _ hr => by cases hr
  | cons hfirst _ ih =>
    obtain ⟨_, _, _, _, _, _, _, hmetered⟩ := hfirst
    exact List.forall_mem_cons.mpr ⟨hmetered.bounds.1, ih⟩

end Conformance.Sandbox
