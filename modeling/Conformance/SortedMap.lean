namespace Conformance

/-- Keys compare by a list of numbers that determines them. -/
class MapKey (κ : Type) where
  rank : κ → List Nat
  rank_inj {a b : κ} : rank a = rank b → a = b

/-- The entries stand in ascending order of their keys' ranks. -/
structure SortedMap (κ α : Type) [MapKey κ] where
  entries : List (κ × α) := []
  ascending : entries.Pairwise (fun a b => MapKey.rank a.1 < MapKey.rank b.1) := by simp

namespace SortedMap
variable {κ α : Type}

open MapKey (rank rank_inj)

section Lookup
variable [DecidableEq κ]

def find? (k : κ) : List (κ × α) → Option α
  | [] => none
  | e :: es => if e.1 = k then some e.2 else find? k es

theorem find?_filter_ne (k k' : κ) (es : List (κ × α)) :
    find? k' (es.filter (fun e => e.1 ≠ k)) = if k = k' then none else find? k' es := by
  induction es with
  | nil => simp [find?]
  | cons e es ih => grind [find?]

theorem mem_of_find?_eq_some {es : List (κ × α)} {k : κ} {v : α} (h : find? k es = some v) :
    (k, v) ∈ es := by
  induction es with
  | nil => simp [find?] at h
  | cons d ds ih => grind [find?]

end Lookup

section Order
variable [MapKey κ]

theorem rank_lt_of_not {a b : κ} (hne : a ≠ b) (h : ¬ rank a < rank b) : rank b < rank a := by
  refine Decidable.byContradiction (fun h' => hne (rank_inj ?_))
  exact List.le_antisymm (List.not_lt.mp h') (List.not_lt.mp h)

theorem entries_eq_of_mem_iff {as bs : List (κ × α)}
    (ha : as.Pairwise (fun a b => rank a.1 < rank b.1))
    (hb : bs.Pairwise (fun a b => rank a.1 < rank b.1))
    (h : ∀ e, e ∈ as ↔ e ∈ bs) : as = bs := by
  induction as generalizing bs with
  | nil =>
    cases bs with
    | nil => rfl
    | cons b bs => exact absurd ((h b).mpr (by simp)) (by simp)
  | cons a as ih =>
    cases bs with
    | nil => have := h a; simp at this
    | cons b bs =>
      rw [List.pairwise_cons] at ha hb
      have hab : a = b := by
        have ha' := (h a).mp (by simp)
        have hb' := (h b).mpr (by simp)
        rcases List.mem_cons.mp ha' with heq | ha'
        · exact heq
        · rcases List.mem_cons.mp hb' with heq | hb'
          · exact heq.symm
          · exact absurd (List.lt_trans (ha.1 b hb') (hb.1 a ha')) (List.lt_irrefl _)
      subst hab
      congr 1
      refine ih ha.2 hb.2 (fun e => ?_)
      constructor
      · intro he
        rcases List.mem_cons.mp ((h e).mp (List.mem_cons_of_mem _ he)) with rfl | he'
        · exact absurd (ha.1 e he) (List.lt_irrefl _)
        · exact he'
      · intro he
        rcases List.mem_cons.mp ((h e).mpr (List.mem_cons_of_mem _ he)) with rfl | he'
        · exact absurd (hb.1 e he) (List.lt_irrefl _)
        · exact he'

end Order

variable [MapKey κ] [DecidableEq κ]

def empty : SortedMap κ α := {}

instance : EmptyCollection (SortedMap κ α) := ⟨empty⟩
instance : Inhabited (SortedMap κ α) := ⟨empty⟩

instance [DecidableEq α] : DecidableEq (SortedMap κ α) := fun a b =>
  decidable_of_iff (a.entries = b.entries) <| by
    cases a; cases b; simp

def get? (m : SortedMap κ α) (k : κ) : Option α := find? k m.entries

def contains (m : SortedMap κ α) (k : κ) : Bool := (m.get? k).isSome

def keys (m : SortedMap κ α) : List κ := m.entries.map Prod.fst

def values (m : SortedMap κ α) : List α := m.entries.map Prod.snd

/-- Puts an entry before the first greater key, in place of an entry with the same key. -/
def insertEntry (k : κ) (v : α) : List (κ × α) → List (κ × α)
  | [] => [(k, v)]
  | e :: es =>
    if e.1 = k then (k, v) :: es
    else if rank k < rank e.1 then (k, v) :: e :: es
    else e :: insertEntry k v es

theorem mem_insertEntry {k : κ} {v : α} {e : κ × α} {es : List (κ × α)}
    (h : e ∈ insertEntry k v es) : e = (k, v) ∨ e ∈ es := by
  induction es with
  | nil => simpa [insertEntry] using h
  | cons d ds ih => grind [insertEntry]

theorem insertEntry_ascending {k : κ} {v : α} {es : List (κ × α)}
    (h : es.Pairwise (fun a b => rank a.1 < rank b.1)) :
    (insertEntry k v es).Pairwise (fun a b => rank a.1 < rank b.1) := by
  induction es with
  | nil => simp [insertEntry]
  | cons e es ih =>
    rw [List.pairwise_cons] at h
    unfold insertEntry
    split
    · rename_i hk
      subst hk
      exact List.pairwise_cons.mpr h
    · rename_i hk
      split
      · rename_i hlt
        refine List.pairwise_cons.mpr ⟨fun d hd => ?_, List.pairwise_cons.mpr h⟩
        rcases List.mem_cons.mp hd with rfl | hd
        · exact hlt
        · exact List.lt_trans hlt (h.1 d hd)
      · rename_i hlt
        refine List.pairwise_cons.mpr ⟨fun d hd => ?_, ih h.2⟩
        rcases mem_insertEntry hd with rfl | hd
        · exact rank_lt_of_not (fun hk' => hk hk'.symm) hlt
        · exact h.1 d hd

def insert (m : SortedMap κ α) (k : κ) (v : α) : SortedMap κ α :=
  ⟨insertEntry k v m.entries, insertEntry_ascending m.ascending⟩

/-- The map of a list of entries; of two with one key the later stays. -/
def ofList (es : List (κ × α)) : SortedMap κ α :=
  es.foldl (fun m e => m.insert e.1 e.2) empty

def erase (m : SortedMap κ α) (k : κ) : SortedMap κ α :=
  ⟨m.entries.filter (fun e => e.1 ≠ k), m.ascending.filter _⟩

theorem find?_insertEntry (k k' : κ) (v : α) (es : List (κ × α)) :
    find? k' (insertEntry k v es) = if k = k' then some v else find? k' es := by
  induction es with
  | nil => simp [insertEntry, find?]
  | cons e es ih => grind [insertEntry, find?]

@[simp] theorem get?_empty (k : κ) : (empty : SortedMap κ α).get? k = none := rfl

/-- An insertion changes the entry at its key and no other. -/
theorem get?_insert (m : SortedMap κ α) (k k' : κ) (v : α) :
    (m.insert k v).get? k' = if k = k' then some v else m.get? k' :=
  find?_insertEntry k k' v m.entries

theorem get?_erase (m : SortedMap κ α) (k k' : κ) :
    (m.erase k).get? k' = if k = k' then none else m.get? k' :=
  find?_filter_ne k k' m.entries

theorem find?_eq_some_of_mem {es : List (κ × α)} {e : κ × α}
    (h : es.Pairwise (fun a b => rank a.1 < rank b.1)) (he : e ∈ es) :
    find? e.1 es = some e.2 := by
  induction es with
  | nil => simp at he
  | cons d ds ih =>
    rw [List.pairwise_cons] at h
    unfold find?
    rcases List.mem_cons.mp he with rfl | he
    · simp
    · have hd := h.1 e he
      rw [if_neg, ih h.2 he]
      intro heq
      rw [heq] at hd
      exact List.lt_irrefl _ hd

theorem get?_eq_some_iff {m : SortedMap κ α} {k : κ} {v : α} :
    m.get? k = some v ↔ (k, v) ∈ m.entries :=
  ⟨mem_of_find?_eq_some, find?_eq_some_of_mem m.ascending⟩

theorem mem_keys {m : SortedMap κ α} {k : κ} : k ∈ m.keys ↔ (m.get? k).isSome := by
  rw [Option.isSome_iff_exists]
  constructor
  · intro h
    obtain ⟨e, he, rfl⟩ := List.mem_map.mp h
    exact ⟨e.2, get?_eq_some_iff.mpr he⟩
  · rintro ⟨v, hv⟩
    exact List.mem_map_of_mem (f := Prod.fst) (get?_eq_some_iff.mp hv)

omit [DecidableEq κ] in
theorem nodup_keys (m : SortedMap κ α) : m.keys.Nodup := by
  refine List.pairwise_map.mpr (m.ascending.imp (fun hlt heq => ?_))
  rw [heq] at hlt
  exact List.lt_irrefl _ hlt

/-- Maps with the same entry at every key are the same map. -/
theorem ext_get? {m n : SortedMap κ α} (h : ∀ k, m.get? k = n.get? k) : m = n := by
  have : m.entries = n.entries := by
    refine entries_eq_of_mem_iff m.ascending n.ascending (fun e => ?_)
    rw [← get?_eq_some_iff (k := e.1) (v := e.2), ← get?_eq_some_iff (k := e.1) (v := e.2), h]
  cases m; cases n
  simp_all

end SortedMap
end Conformance
