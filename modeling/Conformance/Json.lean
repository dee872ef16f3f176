import Conformance.Number.Binary64

namespace Conformance

namespace Json

/-- An unread place is well formed but has no value; a misnamed one stands before a field whose
name has none; at a cut the text stops being JSON. -/
inductive Fault
  | unread
  | misnamed
  | cut
  deriving DecidableEq, Repr

end Json

/-- An object keeps its fields in the order written. Where a text has no value, a fault stands in its
place, so that a reader which skips the place can go on. -/
inductive Json
  | null
  | bool (b : Bool)
  | int (n : Int)
  | float (x : Binary64)
  | string (s : String)
  | array (items : List Json)
  | object (fields : List (String × Json))
  | fault (f : Json.Fault)
  deriving Repr, Inhabited

namespace Json

/-- Puts a field in order of its name, in place of one with the same name. -/
def putField (name : String) (v : Json) : List (String × Json) → List (String × Json)
  | [] => [(name, v)]
  | f :: fs =>
    if f.1 = name then (name, v) :: fs
    else if name < f.1 then (name, v) :: f :: fs
    else f :: putField name v fs

/-- Fields in order of their names; of two with one name the later stays. -/
def sortFields (fields : List (String × Json)) : List (String × Json) :=
  fields.foldl (fun fs f => putField f.1 f.2 fs) []

mutual

/-- Every object sorted, or nothing when a fault stands anywhere. -/
def normalize : Json → Option Json
  | null => some null
  | bool b => some (bool b)
  | int n => some (int n)
  | float x => some (float x)
  | string s => some (string s)
  | array items => (normalizeItems items).map array
  | object fields => (normalizeFields fields).map (fun fs => object (sortFields fs))
  | fault _ => none

def normalizeItems : List Json → Option (List Json)
  | [] => some []
  | v :: vs => do pure ((← normalize v) :: (← normalizeItems vs))

def normalizeFields : List (String × Json) → Option (List (String × Json))
  | [] => some []
  | (name, v) :: fs => do pure ((name, ← normalize v) :: (← normalizeFields fs))

end

mutual

/-- Whether the text goes on after the value. -/
def uncut : Json → Bool
  | array items => uncutItems items
  | object fields => uncutFields fields
  | fault f => f ≠ .cut
  | _ => true

def uncutItems : List Json → Bool
  | [] => true
  | v :: vs => uncut v && uncutItems vs

def uncutFields : List (String × Json) → Bool
  | [] => true
  | (_, v) :: fs => uncut v && uncutFields fs

end

def Ascending (fields : List (String × Json)) : Prop :=
  fields.Pairwise (fun f g => f.1 < g.1)

theorem mem_putField {name : String} {v : Json} {f : String × Json} {fs : List (String × Json)}
    (h : f ∈ putField name v fs) : f = (name, v) ∨ f ∈ fs := by
  induction fs with
  | nil => simpa [putField] using h
  | cons g gs ih => grind [putField]

theorem putField_ascending {name : String} {v : Json} {fs : List (String × Json)}
    (h : Ascending fs) : Ascending (putField name v fs) := by
  induction fs with
  | nil => simp [putField, Ascending]
  | cons g gs ih =>
    unfold Ascending at h ih ⊢
    rw [List.pairwise_cons] at h
    unfold putField
    split
    · rename_i hname
      exact List.pairwise_cons.mpr (hname ▸ h)
    · rename_i hname
      split
      · rename_i hlt
        refine List.pairwise_cons.mpr ⟨fun f hf => ?_, List.pairwise_cons.mpr h⟩
        rcases List.mem_cons.mp hf with rfl | hf
        · exact hlt
        · exact String.lt_trans hlt (h.1 f hf)
      · rename_i hlt
        refine List.pairwise_cons.mpr ⟨fun f hf => ?_, ih h.2⟩
        rcases mem_putField hf with rfl | hf
        · exact Decidable.byContradiction (fun hge =>
            hname (String.le_antisymm (String.not_lt.mp hlt) (String.not_lt.mp hge)))
        · exact h.1 f hf

theorem putField_last {name : String} {v : Json} {fs : List (String × Json)}
    (h : ∀ f ∈ fs, f.1 < name) : putField name v fs = fs ++ [(name, v)] := by
  induction fs with
  | nil => rfl
  | cons g gs ih =>
    have hg := h g (by simp)
    have hne : g.1 ≠ name := fun heq => String.lt_irrefl _ (heq ▸ hg)
    have hlt : ¬ name < g.1 := fun hlt => String.lt_irrefl _ (String.lt_trans hlt hg)
    rw [putField, if_neg hne, if_neg hlt, ih (fun f hf => h f (List.mem_cons_of_mem _ hf))]
    rfl

theorem foldl_putField_ascending {fs acc : List (String × Json)} (h : Ascending acc) :
    Ascending (fs.foldl (fun fs f => putField f.1 f.2 fs) acc) := by
  induction fs generalizing acc with
  | nil => exact h
  | cons f fs ih => exact ih (putField_ascending h)

theorem sortFields_ascending (fs : List (String × Json)) : Ascending (sortFields fs) :=
  foldl_putField_ascending .nil

theorem mem_foldl_putField {fs acc : List (String × Json)} {f : String × Json}
    (h : f ∈ fs.foldl (fun fs f => putField f.1 f.2 fs) acc) : f ∈ fs ∨ f ∈ acc := by
  induction fs generalizing acc with
  | nil => exact .inr h
  | cons g gs ih =>
    rcases ih h with h | h
    · exact .inl (List.mem_cons_of_mem _ h)
    · rcases mem_putField h with rfl | h
      · exact .inl (by simp)
      · exact .inr h

theorem mem_of_mem_sortFields {fs : List (String × Json)} {f : String × Json}
    (h : f ∈ sortFields fs) : f ∈ fs := by
  simpa using mem_foldl_putField h

theorem foldl_putField_append {fs acc : List (String × Json)} (h : Ascending (acc ++ fs)) :
    fs.foldl (fun fs f => putField f.1 f.2 fs) acc = acc ++ fs := by
  induction fs generalizing acc with
  | nil => simp
  | cons f fs ih =>
    have hlast : ∀ g ∈ acc, g.1 < f.1 := fun g hg =>
      (List.pairwise_append.mp h).2.2 g hg f (by simp)
    rw [List.foldl_cons, putField_last hlast, ih (by simpa using h)]
    simp

theorem sortFields_eq_self {fs : List (String × Json)} (h : Ascending fs) : sortFields fs = fs :=
  @foldl_putField_append fs [] (by simpa using h)

theorem normalizeFields_eq_self {fs : List (String × Json)}
    (h : ∀ f ∈ fs, normalize f.2 = some f.2) : normalizeFields fs = some fs := by
  induction fs with
  | nil => simp [normalizeFields]
  | cons f fs ih =>
    obtain ⟨name, v⟩ := f
    have hv := h (name, v) (by simp)
    simp only at hv
    simp [normalizeFields, hv, ih (fun g hg => h g (List.mem_cons_of_mem _ hg))]

mutual

/-- A normal form is its own normal form. -/
theorem normalize_normal : ∀ {j k : Json}, normalize j = some k → normalize k = some k
  | null, k, h | bool _, k, h | int _, k, h | float _, k, h | string _, k, h => by
    simp only [normalize, Option.some.injEq] at h
    subst h
    simp [normalize]
  | array items, k, h => by
    simp only [normalize, Option.map_eq_some_iff] at h
    obtain ⟨vs, hvs, rfl⟩ := h
    simp [normalize, normalizeItems_normal hvs]
  | object fields, k, h => by
    simp only [normalize, Option.map_eq_some_iff] at h
    obtain ⟨fs, hfs, rfl⟩ := h
    have hall := normalizeFields_normal hfs
    have : normalizeFields (sortFields fs) = some (sortFields fs) :=
      normalizeFields_eq_self (fun f hf => hall f (mem_of_mem_sortFields hf))
    simp [normalize, this, sortFields_eq_self (sortFields_ascending fs)]
  | fault _, k, h => by simp [normalize] at h

theorem normalizeItems_normal : ∀ {vs ws : List Json},
    normalizeItems vs = some ws → normalizeItems ws = some ws
  | [], ws, h => by
    simp only [normalizeItems, Option.some.injEq] at h
    subst h
    simp [normalizeItems]
  | v :: vs, ws, h => by
    simp only [normalizeItems, Option.pure_def, Option.bind_eq_bind, Option.bind_eq_some_iff,
      Option.some.injEq] at h
    obtain ⟨w, hw, us, hus, rfl⟩ := h
    simp [normalizeItems, normalize_normal hw, normalizeItems_normal hus]

theorem normalizeFields_normal : ∀ {fs gs : List (String × Json)},
    normalizeFields fs = some gs → ∀ g ∈ gs, normalize g.2 = some g.2
  | [], gs, h => by
    simp only [normalizeFields, Option.some.injEq] at h
    subst h
    simp
  | (name, v) :: fs, gs, h => by
    simp only [normalizeFields, Option.pure_def, Option.bind_eq_bind, Option.bind_eq_some_iff,
      Option.some.injEq] at h
    obtain ⟨w, hw, us, hus, rfl⟩ := h
    intro g hg
    rcases List.mem_cons.mp hg with rfl | hg
    · exact normalize_normal hw
    · exact normalizeFields_normal hus g hg

end

end Json

/-- A JSON value carried along unread: in normal form, so that equal values look equal. -/
structure Opaque where
  json : Json
  normal : json.normalize = some json := by simp [Json.normalize]

namespace Opaque

def null : Opaque := { json := .null }

instance : Inhabited Opaque := ⟨null⟩

def ofJson? (j : Json) : Option Opaque :=
  match h : j.normalize with
  | some k => some ⟨k, Json.normalize_normal h⟩
  | none => none

end Opaque
end Conformance
