import Mathlib.Data.List.Nodup
import Mathlib.Data.List.Perm.Basic
import Conformance.Proofs.Bytes.Delimited
import Conformance.Sandbox

namespace Conformance

namespace SortedMap
variable {κ α : Type} [MapKey κ] [DecidableEq κ]

theorem insert_comm (m : SortedMap κ α) {k k' : κ} (h : k ≠ k') (v v' : α) :
    (m.insert k v).insert k' v' = (m.insert k' v').insert k v := by
  refine ext_get? (fun l => ?_)
  simp only [get?_insert]
  by_cases hk : k = l
  · subst hk
    simp [Ne.symm h]
  · simp [hk]

/-- Entries with keys of their own may come in any order. -/
theorem ofList_perm {es ds : List (κ × α)} (h : es.Perm ds) (hkeys : (es.map Prod.fst).Nodup) :
    ofList es = ofList ds := by
  refine h.foldl_eq' (fun e he d hd m => ?_) empty
  by_cases hsame : e.1 = d.1
  · rw [List.inj_on_of_nodup_map hkeys he hd hsame]
  · exact m.insert_comm hsame e.2 d.2

end SortedMap

open Bytes (Delimited)

theorem TokenAmount.toText_inj {a b : TokenAmount} (h : toText a = toText b) : a = b :=
  Numeral.digits_inj (String.ofList_injective h)

theorem TokenAmount.delimited_stored : Delimited stored :=
  Bytes.delimited_text (fun _ _ => toText_inj)

theorem Address.delimited_stored : Delimited stored :=
  Bytes.delimited_text (fun _ _ => toText_inj)

theorem Cid.delimited_stored : Delimited stored :=
  Bytes.delimited_text (fun a b h => by cases a; cases b; exact congrArg mk h)

namespace Sandbox

theorem delimited_storedActor : Delimited storedActor := by
  intro a b r r' h
  simp only [storedActor, List.append_assoc] at h
  obtain ⟨hcode, h⟩ := Cid.delimited_stored h
  obtain ⟨hhead, h⟩ := Cid.delimited_stored h
  obtain ⟨hnonce, h⟩ := Bytes.delimited_ofUInt64 h
  obtain ⟨hbalance, hrest⟩ := TokenAmount.delimited_stored h
  cases a; cases b
  exact ⟨by simp_all, hrest⟩

/-- A map is told from others by its entries, whatever follows it. -/
theorem delimited_storedMap {κ α : Type} [MapKey κ] {key : κ → Bytes} {value : α → Bytes}
    (hkey : Delimited key) (hvalue : Delimited value) : Delimited (storedMap key value) := by
  refine (hkey.pair hvalue).counted.comp (f := SortedMap.entries) (fun m n h => ?_)
  cases m; cases n
  cases h
  rfl

theorem delimited_storedCron : Delimited storedCron := by
  intro a b r r' h
  cases a with
  | none =>
    cases b with
    | none => exact ⟨rfl, (List.cons.inj h).2⟩
    | some y => exact absurd (List.cons.inj h).1 (by decide)
  | some x =>
    cases b with
    | none => exact absurd (List.cons.inj h).1 (by decide)
    | some y =>
      obtain ⟨hsame, hrest⟩ :=
        Bytes.delimited_ofInt64.pair Bytes.delimited_sized (List.cons.inj h).2
      exact ⟨congrArg some hsame, hrest⟩

/-- States whose fields hold the same, maps key by key. -/
structure Agrees (s t : Sandbox) : Prop where
  actors : ∀ id, s.actors.get? id = t.actors.get? id
  addresses : ∀ a, s.addresses.get? a = t.addresses.get? a
  store : ∀ cid, s.store.get? cid = t.store.get? cid
  nextId : s.nextId = t.nextId
  rewardPool : s.rewardPool = t.rewardPool
  burnt : s.burnt = t.burnt
  lastCron : s.lastCron = t.lastCron

theorem agrees_iff {s t : Sandbox} : s.Agrees t ↔ s = t := by
  constructor
  · intro h
    have hactors := SortedMap.ext_get? h.actors
    have haddresses := SortedMap.ext_get? h.addresses
    have hstore := SortedMap.ext_get? h.store
    obtain ⟨_, _, _, hnext, hpool, hburnt, hcron⟩ := h
    cases s; cases t
    simp_all
  · rintro rfl
    exact ⟨fun _ => rfl, fun _ => rfl, fun _ => rfl, rfl, rfl, rfl, rfl⟩

theorem bytes_inj {s t : Sandbox} (h : s.bytes = t.bytes) : s = t := by
  simp only [bytes, List.append_assoc] at h
  obtain ⟨hactors, h⟩ := delimited_storedMap Bytes.delimited_ofUInt64 delimited_storedActor h
  obtain ⟨haddresses, h⟩ := delimited_storedMap Address.delimited_stored Bytes.delimited_ofUInt64 h
  obtain ⟨hstore, h⟩ := delimited_storedMap Cid.delimited_stored Bytes.delimited_sized h
  obtain ⟨hnext, h⟩ := Bytes.delimited_ofUInt64 h
  obtain ⟨hpool, h⟩ := TokenAmount.delimited_stored h
  obtain ⟨hburnt, h⟩ := TokenAmount.delimited_stored h
  rw [← List.append_nil (storedCron s.lastCron), ← List.append_nil (storedCron t.lastCron)] at h
  obtain ⟨hcron, _⟩ := delimited_storedCron h
  cases s; cases t
  simp_all

/-- The state with maps that were filled entry by entry. -/
def filled (s : Sandbox) (actors : List (UInt64 × Actor)) (addresses : List (Address × UInt64))
    (store : List (Cid × Bytes)) : Sandbox :=
  { s with actors := .ofList actors, addresses := .ofList addresses, store := .ofList store }

/-- Bytes and root determine the state, and only what maps hold is in them. -/
theorem root_determines :
    (∀ s t : Sandbox, s.bytes = t.bytes ↔ s.Agrees t) ∧
    (∀ (s : Sandbox) {as as' : List (UInt64 × Actor)} {ks ks' : List (Address × UInt64)}
        {ds ds' : List (Cid × Bytes)},
      as.Perm as' → ks.Perm ks' → ds.Perm ds' →
      (as.map Prod.fst).Nodup → (ks.map Prod.fst).Nodup → (ds.map Prod.fst).Nodup →
      (s.filled as ks ds).bytes = (s.filled as' ks' ds').bytes) ∧
    (∀ s t : Sandbox, ¬ Bytes.Collide s.bytes t.bytes → (s.root = t.root ↔ s.Agrees t)) := by
  have hbytes : ∀ s t : Sandbox, s.bytes = t.bytes ↔ s.Agrees t := by
    intro s t
    rw [agrees_iff]
    exact ⟨bytes_inj, congrArg bytes⟩
  refine ⟨hbytes, ?_, fun s t h => (Cid.ofBytes_inj h).trans (hbytes s t)⟩
  intro s as as' ks ks' ds ds' has hks hds hasKeys hksKeys hdsKeys
  simp only [filled, SortedMap.ofList_perm has hasKeys, SortedMap.ofList_perm hks hksKeys,
    SortedMap.ofList_perm hds hdsKeys]

/-- The bytes of 256 come before those of 1. -/
theorem root_determines_orders :
    let s := filled {} [(1, .account 5), (256, .account 7)] [(.bls [], 1), (.bls [2], 256)] []
    let s' := filled {} [(256, .account 7), (1, .account 5)] [(.bls [2], 256), (.bls [], 1)] []
    s.actors.keys = [256, 1] ∧ s.bytes = s'.bytes ∧ s.bytes ≠ bytes {} ∧
      root {} ≠ root { burnt := 1 } := by
  obtain ⟨hbytes, horder, hroot⟩ := root_determines
  have hdistinct : ¬ Bytes.Collide (bytes {}) (bytes { burnt := 1 }) := by
    rintro ⟨_, h⟩
    exact absurd h (by decide +kernel)
  refine ⟨by decide, horder {} (.swap _ _ _) (.swap _ _ _) .rfl (by decide) (by decide) (by decide),
    fun h => ?_, fun h => ?_⟩
  · have hactor := ((hbytes _ _).mp h).actors 1
    exact absurd hactor (by decide)
  · have hburnt := ((hroot _ _ hdistinct).mp h).burnt
    exact absurd hburnt (by decide)

end Sandbox
end Conformance
