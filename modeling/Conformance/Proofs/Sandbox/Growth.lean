import Conformance.Proofs.Machine.Logged
import Conformance.Proofs.Sandbox.Reached

namespace Conformance

namespace SortedMap
variable {κ α : Type} [MapKey κ] [DecidableEq κ] {m : SortedMap κ α} {k k' : κ} {v : α}

theorem contains_insert_self : (m.insert k v).contains k = true := by
  simp [contains, get?_insert]

theorem contains_insert (h : m.contains k' = true) : (m.insert k v).contains k' = true := by
  unfold contains
  rw [get?_insert]
  split
  · rfl
  · exact h

end SortedMap

namespace Sandbox

open Machine (Application)

/-- A state that comes after another: counters have not gone back, and nothing that was there is
gone or goes by another ID. -/
structure Grows (s s' : Sandbox) : Prop where
  nextId : s.nextId ≤ s'.nextId
  burnt : s.burnt ≤ s'.burnt
  resolves : ∀ address id, s.resolve address = some id → s'.resolve address = some id
  actors : ∀ id, s.actors.contains id = true → s'.actors.contains id = true
  stored : ∀ cid, s.store.contains cid = true → s'.store.contains cid = true

variable {s s' s'' : Sandbox} {id i : UInt64} {a : Actor}

namespace Grows

theorem refl (s : Sandbox) : Grows s s where
  nextId := UInt64.le_refl _
  burnt := Nat.le_refl _
  resolves _ _ := id
  actors _ := id
  stored _ := id

theorem trans (h : Grows s s') (h' : Grows s' s'') : Grows s s'' where
  nextId := UInt64.le_trans h.nextId h'.nextId
  burnt := Nat.le_trans h.burnt h'.burnt
  resolves address id hid := h'.resolves address id (h.resolves address id hid)
  actors id hid := h'.actors id (h.actors id hid)
  stored cid hcid := h'.stored cid (h.stored cid hcid)

end Grows

/-- An ID address stands for its actor once the actor is there. -/
theorem resolve_id_of_contains {n : UInt64} (h : s.actors.contains n = true) :
    s.resolve (.id n) = some n := if_pos h

theorem contains_of_resolve_id {n : UInt64} (h : s.resolve (.id n) = some id) :
    s.actors.contains n = true ∧ n = id := by
  change (if s.actors.contains n = true then some n else none) = some id at h
  split at h
  · rename_i hn
    exact ⟨hn, Option.some.inj h⟩
  · cases h

/-- Where actors stay and a key keeps its ID, every address does. -/
theorem resolve_of_actors {address : Address}
    (hactors : ∀ n, s.actors.contains n = true → s'.actors.contains n = true)
    (hkey : address.isId = false → s'.addresses.get? address = s.addresses.get? address)
    (h : s.resolve address = some id) : s'.resolve address = some id := by
  cases address with
  | id n =>
    obtain ⟨hn, rfl⟩ := contains_of_resolve_id h
    exact resolve_id_of_contains (hactors n hn)
  | secp256k1 p => exact (hkey rfl).trans h
  | actor p => exact (hkey rfl).trans h
  | bls key => exact (hkey rfl).trans h

/-- An address that stands for an actor already is not recorded again. -/
theorem get?_addresses_insertActor {address key : Address}
    (h : s.insertActor address a = .ok (id, s')) (hkey : s.resolve key = some i) :
    s'.addresses.get? key = s.addresses.get? key := by
  obtain ⟨hnone, _, after, _, rfl⟩ := insertActor_ok h
  dsimp only
  split
  · rfl
  · rw [SortedMap.get?_insert, if_neg]
    rintro rfl
    cases hnone.symm.trans hkey

theorem Edit.grows {steady : Prop} (h : Edit steady s s') : Grows s s' := by
  cases h with
  | @put id _ b _ _ _ =>
    have hactors : ∀ n, s.actors.contains n = true → (s.putActor id b).actors.contains n = true :=
      fun _ => SortedMap.contains_insert
    exact { Grows.refl s with
      actors := hactors
      resolves := fun _ _ => resolve_of_actors hactors (fun _ => rfl) }
  | insert hins _ _ =>
    have hactors : ∀ n, s.actors.contains n = true → s'.actors.contains n = true := by
      rw [actors_of_insertActor hins]
      exact fun _ => SortedMap.contains_insert
    constructor
    case nextId =>
      rw [UInt64.le_iff_toNat_le, nextId_of_insertActor hins]
      exact Nat.le_max_left _ _
    case burnt =>
      obtain ⟨_, _, after, _, rfl⟩ := insertActor_ok hins
      exact Nat.le_refl _
    case resolves =>
      exact fun _ _ hid => resolve_of_actors hactors
        (fun _ => get?_addresses_insertActor hins hid) hid
    case actors => exact hactors
    case stored =>
      rw [store_of_insertActor hins]
      exact fun _ => id
  | store data => exact { Grows.refl s with stored := fun _ => SortedMap.contains_insert }
  | move rewardPool burnt h => exact { Grows.refl s with burnt := h }
  | tick lastCron => exact { Grows.refl s with }

theorem Edits.grows (h : Edits s s') : Grows s s' := by
  induction h with
  | refl => exact .refl s
  | tail _ hedit ih => exact ih.trans hedit.grows

/-- A run is one chain of edits, through every call that fails in it. -/
theorem edits_of_ran {log : List (Application Sandbox)} (h : machine.Ran s s' log) :
    Edits s s' :=
  h.kept_state (P := Edits s) (fun c t ht => ht.trans (edits_call c t)) .refl

/-- Stored bytes are there, and are those of their identifier. -/
theorem Sound.storeGet (hs : Sound s) {cid : Cid} (h : s.store.contains cid = true) :
    ∃ data, machine.call (.vm (.storeGet cid)) s = (.ok data, s) ∧ Cid.ofBytes data = cid := by
  obtain ⟨data, hdata⟩ := Option.isSome_iff_exists.mp h
  refine ⟨data, ?_, (hs.stored cid data hdata).symm⟩
  change ((s.storeGet cid).mapError Failure.ofMachine, s) = _
  rw [Sandbox.storeGet, hdata]
  rfl

/-- In every state of a run IDs, keys and stored bytes are in order; every later state has grown out
of it; and what is put in its store can be got from every state after that. -/
theorem grows_of_ran {log : List (Application Sandbox)} (h : machine.Ran {} s log) :
    Sound s ∧ (∀ s' log', machine.Ran s s' log' → Grows s s') ∧
    ∀ data, ∃ cid t, machine.call (.vm (.storePut data)) s = (.ok cid, t) ∧
      ∀ s' log', machine.Ran t s' log' →
        ∃ found, machine.call (.vm (.storeGet cid)) s' = (.ok found, s') ∧
          Cid.ofBytes found = cid := by
  have hs : Sound s := sound_fresh.edits (edits_of_ran h)
  refine ⟨hs, fun s' _ hran => Edits.grows (edits_of_ran hran), fun data => ?_⟩
  refine ⟨.ofBytes data, (s.storePut data).2, rfl, fun s' _ hran => ?_⟩
  have hput : Edit False s (s.storePut data).2 := .store data
  have hlater := edits_of_ran hran
  refine ((hs.edit hput).edits hlater).storeGet ?_
  exact (Edits.grows hlater).stored _ SortedMap.contains_insert_self

/-- A payer who comes in under a key, at an ID that a greater one has moved out of the way, and pays
a key that nobody has used. -/
def pledge : Message where
  recipient := .bls [1]
  sender := .bls [7]
  nonce := 0
  value := 5
  method := Message.send
  params := []
  gasFeeCap := 2
  gasPremium := 3
  gasLimit := 2000

/-- Actors at an ID ahead of the next one and at an ID below it, under a key, one that is there
already, one behind the last ID, one created by a transfer and one created as a miner. -/
theorem grows_of_ran_pledge : ∃ s log, machine.Ran {} s log ∧
    s.actors.keys = [50, 5000, 5001, 5002, 5003] ∧ s.nextId = 5004 ∧ log.length = 1 ∧
    s.resolve (.bls [7]) = some 5001 ∧
    ∀ s' log', machine.Ran s s' log' →
      s'.resolve (.bls [7]) = some 5001 ∧ s'.actors.contains 50 = true ∧ 5004 ≤ s'.nextId := by
  obtain ⟨s, log, hran, hkeys, hnext, hlog, hkey, hfirst⟩ : ∃ s log, machine.Ran {} s log ∧
      s.actors.keys = [50, 5000, 5001, 5002, 5003] ∧ s.nextId = 5004 ∧ log.length = 1 ∧
      s.resolve (.bls [7]) = some 5001 ∧ s.actors.contains 50 = true :=
    ⟨_, _, ((((((Machine.Ran.start.call
        (.vm (.createActor .account (.id 5000) 0 .emptyObject))).call
        (.vm (.createActor .account (.id 50) 0 .emptyObject))).call
        (.vm (.createActor .account (.bls [7]) 100000 .emptyObject))).call
        (.vm (.createActor .account (.bls [7]) 1 .emptyObject))).call
        (.vm (.createActor .account (.id 18446744073709551615) 0 .emptyObject))).drive
        (.message { epoch := 1, miner := .id 1000 } pledge)).call
        (.reward 1 (.bls [9]) 0 1200 1), by decide +kernel⟩
  refine ⟨s, log, hran, hkeys, hnext, hlog, hkey, fun s' log' hlater => ?_⟩
  have hgrows := (grows_of_ran hran).2.1 s' log' hlater
  exact ⟨hgrows.resolves _ _ hkey, hgrows.actors _ hfirst, hnext ▸ hgrows.nextId⟩

end Sandbox
end Conformance
