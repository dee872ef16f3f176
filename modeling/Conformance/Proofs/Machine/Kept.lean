import Mathlib.Algebra.GroupWithZero.Nat
import Conformance.Machine.Walk

namespace Conformance

namespace Op
variable {σ α β γ : Type}

theorem bind_apply (op : Op σ α) (f : α → Op σ β) (s : σ) :
    (op >>= f) s = ExceptT.bindCont f (op s).1 (op s).2 := rfl

theorem bind_ok {op : Op σ α} {f : α → Op σ β} {s s' : σ} {x : α} (h : op s = (.ok x, s')) :
    (op >>= f) s = f x s' := by
  rw [bind_apply, h]
  rfl

theorem bind_error {op : Op σ α} {f : α → Op σ β} {s s' : σ} {e : Failure}
    (h : op s = (.error e, s')) : (op >>= f) s = (.error e, s') := by
  rw [bind_apply, h]
  rfl

theorem bind_map (op : Op σ α) (f : α → β) (s : σ) :
    (op >>= fun x => pure (f x)) s = ((op s).1.map f, (op s).2) := by
  rcases hop : op s with ⟨e | x, s'⟩
  · exact bind_error hop
  · exact bind_ok hop

/-- A step leads from states of one kind to states of another, and fails in one way only. -/
def Keeps (P Q : σ → Prop) (E : Failure → Prop) (op : Op σ α) : Prop :=
  ∀ s, P s → Q (op s).2 ∧ ∀ e, (op s).1 = .error e → E e

namespace Keeps
variable {P Q R : σ → Prop} {E : Failure → Prop} {op : Op σ α}

theorem pure (x : α) : Keeps P P E (Pure.pure x : Op σ α) := fun _ hs => ⟨hs, fun _ h => by cases h⟩

theorem mono (h : Keeps P Q E op) (hQR : ∀ s, Q s → R s) : Keeps P R E op :=
  fun s hs => ⟨hQR _ (h s hs).1, (h s hs).2⟩

/-- Where the first step fails, the second adds nothing. -/
theorem bind (h : Keeps P Q E op) {f : α → Op σ β} (hf : ∀ x, Keeps Q R E (f x))
    (hQR : ∀ s, Q s → R s) : Keeps P R E (op >>= f) := by
  intro s hs
  obtain ⟨hkept, hfail⟩ := h s hs
  rcases hop : op s with ⟨e | x, s'⟩
  · rw [hop] at hkept hfail
    rw [bind_error hop]
    exact ⟨hQR _ hkept, fun _ he => hfail _ (congrArg _ (Except.error.inj he))⟩
  · rw [hop] at hkept
    rw [bind_ok hop]
    exact hf x s' hkept

theorem within (h : Keeps P Q E op) (hE : ∀ e context, E e → E (e.within context))
    (context : String) : Keeps P Q E (op.within context) := by
  intro s hs
  obtain ⟨hkept, hfail⟩ := h s hs
  unfold Op.within
  rcases hop : op s with ⟨e | x, s'⟩
  · rw [hop] at hkept hfail
    exact ⟨hkept, fun _ he => Except.error.inj he ▸ hE e context (hfail e rfl)⟩
  · rw [hop] at hkept
    exact ⟨hkept, fun _ he => by cases he⟩

theorem ofStep {step : σ → Except Machine.Error α × σ}
    (h : ∀ s, P s → Q (step s).2 ∧ ∀ d, (step s).1 = .error d → E (.ofMachine d)) :
    Keeps P Q E (.ofStep step) := by
  intro s hs
  obtain ⟨hkept, hfail⟩ := h s hs
  refine ⟨hkept, fun e he => ?_⟩
  change (step s).1.mapError Failure.ofMachine = .error e at he
  cases hr : (step s).1 with
  | error d =>
    rw [hr] at he
    exact Except.error.inj he ▸ hfail d hr
  | ok x =>
    rw [hr] at he
    cases he

theorem ofView {view : σ → Except Machine.Error α}
    (h : ∀ s d, view s = .error d → E (.ofMachine d)) : Keeps P P E (.ofView view) := by
  have hstep : Keeps P P E (.ofStep (fun s => (view s, s))) := ofStep (fun s hs => ⟨hs, h s⟩)
  exact hstep

theorem ofUpdate {update : σ → Except Machine.Error (α × σ)}
    (hfail : ∀ s d, update s = .error d → E (.ofMachine d))
    (hkept : ∀ s x s', P s → update s = .ok (x, s') → P s') : Keeps P P E (.ofUpdate update) := by
  intro s hs
  unfold Op.ofUpdate
  cases hu : update s with
  | error d => exact ⟨hs, fun e he => Except.error.inj he ▸ hfail s d hu⟩
  | ok r => exact ⟨hkept s r.1 r.2 hs hu, fun e he => by cases he⟩

/-- A loop whose every pass keeps a property up to its cost keeps it up to all costs together. -/
theorem foldlM {P : Nat → σ → Prop} {f : β → γ → Op σ β} {cost : γ → Nat} {room : Nat → Prop}
    (hP : ∀ n k s, n ≤ k → P n s → P k s) (hroom : ∀ n k, n ≤ k → room k → room n)
    {cs : List γ} (h : ∀ c ∈ cs, ∀ n t, room (n + cost c) → Keeps (P n) (P (n + cost c)) E (f t c))
    {n : Nat} (t : β) (hn : room (n + (cs.map cost).sum)) :
    Keeps (P n) (P (n + (cs.map cost).sum)) E (cs.foldlM f t) := by
  induction cs generalizing n t with
  | nil => exact .pure t
  | cons c cs ih =>
    simp only [List.map_cons, List.sum_cons, ← Nat.add_assoc] at hn ⊢
    rw [List.foldlM_cons]
    refine (h c (by simp) n t (hroom _ _ (Nat.le_add_right _ _) hn)).bind (fun u => ?_)
      (fun s => hP _ _ s (Nat.le_add_right _ _))
    exact ih (fun d hd => h d (by simp [hd])) u hn

end Keeps
end Op

/-- The lengths of the messages that a call applies, duplicates included. -/
def Binding.Call.lengths : {α : Type} → Binding.Call α → List Nat
  | _, .vm _ => []
  | _, .message _ m => [m.chainLength]
  | _, .signed _ m => [m.chainLength]
  | _, .tipSet blocks _ _ => blocks.flatMap (fun b => b.entries.map Prod.snd)

namespace Machine
variable {σ : Type}

/-- A call of a machine, by the type of its result. -/
inductive Call : Type → Type 1
  | vm {α : Type} (c : Vm.Call α) : Call α
  | apply (epoch : Int64) (miner : Address) (m : Message) (chainLength : Nat) : Call Outcome
  | reward (epoch : Int64) (miner : Address) (penalty gasReward : TokenAmount) (tickets : Int64) :
    Call Unit
  | cron (epoch : Int64) (randomness : Randomness) : Call Unit

def call {α : Type} (m : Machine σ) : Call α → Op σ α
  | .vm c => m.toVm.call c
  | .apply epoch miner msg chainLength => m.apply epoch miner msg chainLength
  | .reward epoch miner penalty gasReward tickets => m.reward epoch miner penalty gasReward tickets
  | .cron epoch randomness => m.cron epoch randomness

variable {m : Machine σ} {P : Nat → σ → Prop} {E : Failure → Prop} {fits : Nat → Prop}
  {room : Nat → Prop}

/-- A property by the number of messages that every operation of a machine keeps, for messages
of lengths that fit and as long as there is room for their number. -/
structure Keeps (m : Machine σ) (P : Nat → σ → Prop) (E : Failure → Prop) (fits room : Nat → Prop) :
    Prop where
  mono : ∀ n k s, n ≤ k → P n s → P k s
  fewer : ∀ n k, n ≤ k → room k → room n
  within : ∀ e context, E e → E (e.within context)
  vm : ∀ n {α : Type} (c : Vm.Call α), (m.toVm.call c).Keeps (P n) (P n) E
  apply : ∀ n epoch miner msg chainLength, fits chainLength → room (n + 1) →
    (m.apply epoch miner msg chainLength).Keeps (P n) (P (n + 1)) E
  reward : ∀ n epoch miner penalty gasReward tickets,
    (m.reward epoch miner penalty gasReward tickets).Keeps (P n) (P n) E
  cron : ∀ n epoch randomness, (m.cron epoch randomness).Keeps (P n) (P n) E

namespace Keeps
variable (h : m.Keeps P E fits room)
include h

theorem applyEntry (epoch : Int64) (index : Nat) (miner : Address) (t : Tally) {e : Message × Nat}
    {n : Nat} (hfits : fits e.2) (hn : room (n + 1)) :
    (m.applyEntry epoch index miner t e).Keeps (P n) (P (n + 1)) E := by
  unfold Machine.applyEntry
  simp only
  split
  · exact (Op.Keeps.pure t).mono (fun s => h.mono n (n + 1) s (Nat.le_succ n))
  · exact ((h.apply n epoch miner e.1 e.2 hfits hn).within h.within _).bind
      (fun _ => .pure _) (fun _ => id)

theorem applyBlock (epoch : Int64) (t : Tally) (b : Block × Nat) {n : Nat}
    (hfits : ∀ e ∈ b.1.entries, fits e.2) (hn : room (n + b.1.entries.length)) :
    (m.applyBlock epoch t b).Keeps (P n) (P (n + b.1.entries.length)) E := by
  have hcost : (b.1.entries.map (fun _ => 1)).sum = b.1.entries.length := by
    rw [List.map_const', List.sum_replicate_nat, Nat.mul_one]
  have hloop := Op.Keeps.foldlM (n := n) h.mono h.fewer
    (fun e he _ t hn => h.applyEntry epoch b.2 b.1.miner t (hfits e he) hn)
    ({ t with penalty := 0, reward := 0 } : Tally) (by rwa [hcost])
  rw [hcost] at hloop
  unfold Machine.applyBlock
  refine hloop.bind (fun t => ?_) (fun _ => id)
  exact ((h.reward _ epoch b.1.miner _ _ _).within h.within _).bind (fun _ => .pure t) (fun _ => id)

theorem applyTipSet (blocks : List Block) (epoch : Int64) (randomness : Randomness) {n : Nat}
    (hfits : ∀ b ∈ blocks, ∀ e ∈ b.entries, fits e.2)
    (hn : room (n + (blocks.map (·.entries.length)).sum)) :
    (m.applyTipSet blocks epoch randomness).Keeps (P n)
      (P (n + (blocks.map (·.entries.length)).sum)) E := by
  have hcost : (blocks.zipIdx.map (fun b => b.1.entries.length)) =
      blocks.map (·.entries.length) := by
    have := congrArg (List.map (·.entries.length)) (List.zipIdx_map_fst 0 blocks)
    rwa [List.map_map] at this
  have hloop := Op.Keeps.foldlM (n := n) h.mono h.fewer
    (fun b hb _ t hn => h.applyBlock epoch t b (hfits b.1 (List.fst_mem_of_mem_zipIdx hb)) hn)
    ({} : Tally) (by rwa [hcost])
  rw [hcost] at hloop
  unfold Machine.applyTipSet
  refine hloop.bind (fun t => ?_) (fun _ => id)
  exact ((h.cron _ epoch randomness).within h.within _).bind (fun _ => .pure _) (fun _ => id)

/-- What the operations keep, a call keeps, whether it succeeds or fails. -/
theorem call {α : Type} (k : Binding.Call α) {n : Nat} (hfits : ∀ length ∈ k.lengths, fits length)
    (hn : room (n + k.lengths.length)) :
    (m.binding.call k).Keeps (P n) (P (n + k.lengths.length)) E := by
  have hroot : ∀ n, m.binding.root.Keeps (P n) (P n) E := fun n => h.vm n .root
  cases k with
  | vm c => exact h.vm n c
  | message ctx msg =>
    exact (h.apply n ctx.epoch ctx.miner msg _ (hfits _ (by simp [Binding.Call.lengths])) hn).bind
      (fun _ => (hroot _).bind (fun _ => .pure _) (fun _ => id)) (fun _ => id)
  | signed ctx msg =>
    exact (h.apply n ctx.epoch ctx.miner msg.message _
      (hfits _ (by simp [Binding.Call.lengths])) hn).bind
        (fun _ => (hroot _).bind (fun _ => .pure _) (fun _ => id)) (fun _ => id)
  | tipSet blocks epoch randomness =>
    have hcount : (Binding.Call.tipSet blocks epoch randomness).lengths.length =
        (blocks.map (·.entries.length)).sum := by
      simp [Binding.Call.lengths, List.length_flatMap]
    rw [hcount] at hn ⊢
    refine (h.applyTipSet blocks epoch randomness (fun b hb e he => hfits e.2 ?_) hn).bind
      (fun _ => (hroot _).bind (fun _ => .pure _) (fun _ => id)) (fun _ => id)
    exact List.mem_flatMap.mpr ⟨b, hb, List.mem_map_of_mem he⟩

end Keeps
end Machine
end Conformance
