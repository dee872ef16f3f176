import Conformance.Rpc.Envelope

namespace Conformance

namespace Json

theorem mem_putField_self (name : String) (v : Json) (fs : List (String × Json)) :
    (name, v) ∈ putField name v fs := by
  induction fs with
  | nil => simp [putField]
  | cons g gs ih => grind [putField]

theorem mem_putField_of_ne {name : String} {v : Json} {f : String × Json}
    {fs : List (String × Json)} (hne : f.1 ≠ name) (h : f ∈ fs) : f ∈ putField name v fs := by
  induction fs with
  | nil => simp at h
  | cons g gs ih => grind [putField]

theorem mem_foldl_putField_of_not_mem {f : String × Json} {fs acc : List (String × Json)}
    (hnew : ∀ g ∈ fs, g.1 ≠ f.1) (h : f ∈ acc) :
    f ∈ fs.foldl (fun fs f => putField f.1 f.2 fs) acc := by
  induction fs generalizing acc with
  | nil => exact h
  | cons g gs ih =>
    have hne : f.1 ≠ g.1 := fun heq => hnew g (by simp) heq.symm
    exact ih (fun d hd => hnew d (List.mem_cons_of_mem _ hd)) (mem_putField_of_ne hne h)

/-- Sorting loses no field when all names are different. -/
theorem mem_sortFields_of_nodup {f : String × Json} {fs : List (String × Json)}
    (hnodup : (fs.map Prod.fst).Nodup) (h : f ∈ fs) : f ∈ sortFields fs := by
  unfold sortFields
  generalize ([] : List (String × Json)) = acc
  induction fs generalizing acc with
  | nil => simp at h
  | cons g gs ih =>
    rw [List.map_cons, List.nodup_cons] at hnodup
    rcases List.mem_cons.mp h with rfl | h
    · have hnew : ∀ d ∈ gs, d.1 ≠ f.1 := fun d hd heq =>
        hnodup.1 (heq ▸ List.mem_map_of_mem hd)
      rw [List.foldl_cons]
      exact mem_foldl_putField_of_not_mem hnew (mem_putField_self f.1 f.2 acc)
    · exact ih hnodup.2 h _

theorem nodup_of_ascending {fs : List (String × Json)} (h : Ascending fs) :
    (fs.map Prod.fst).Nodup := by
  refine List.pairwise_map.mpr (h.imp (fun hlt heq => ?_))
  exact String.lt_irrefl _ (heq ▸ hlt)

/-- Only null has null as its normal form. -/
theorem normalize_ne_null {j k : Json} (hj : j ≠ .null) (h : j.normalize = some k) : k ≠ .null := by
  rintro rfl
  cases j <;> simp_all [normalize]

end Json

namespace Codec
variable {α β : Type}

/-- The value is read from what it is written as, and from the normal form of that. -/
structure Carries (c : Codec α) (x : α) : Prop where
  plain : c.decode (c.encode x) = .ok x
  normal : ∃ k, (c.encode x).normalize = some k ∧ c.decode k = .ok x

theorem Carries.ofOpaque_store {c : Codec α} {x : α} (h : c.Carries x) :
    c.ofOpaque (c.store x) = .ok x := by
  obtain ⟨k, hk, hx⟩ := h.normal
  unfold ofOpaque store Opaque.ofJson?
  split
  · rename_i k' hk'
    obtain rfl : k' = k := Option.some.inj (hk'.symm.trans hk)
    exact hx
  · rename_i hnone
    rw [hk] at hnone
    cases hnone

/-- A form that is normal already carries as soon as it reads back. -/
theorem Carries.of_normal {c : Codec α} {x : α} (hnormal : (c.encode x).normalize = some (c.encode x))
    (h : c.decode (c.encode x) = .ok x) : c.Carries x :=
  ⟨h, _, hnormal, h⟩

theorem Carries.map {c : Codec α} {unpack : β → α} {pack : α → β} {y : β}
    (h : c.Carries (unpack y)) (hpack : pack (unpack y) = y) : (c.map unpack pack).Carries y := by
  obtain ⟨hplain, k, hk, hnormal⟩ := h
  refine ⟨?_, k, hk, ?_⟩
  · simp [Codec.map, hplain, Except.map, hpack]
  · simp [Codec.map, hnormal, Except.map, hpack]

theorem carries_bool (b : Bool) : bool.Carries b :=
  .of_normal (by simp [bool, Json.normalize]) rfl

theorem carries_string (s : String) : string.Carries s :=
  .of_normal (by simp [string, Json.normalize]) rfl

theorem carries_within {low high n : Int} (want : String) (h : low ≤ n ∧ n ≤ high) :
    (within low high want).Carries n :=
  .of_normal (by simp [within, Json.normalize]) (by simp [within, h])

theorem carries_uint64 (n : UInt64) : uint64.Carries n := by
  have := n.toNat_lt
  exact (carries_within _ (by omega)).map (by simp)

theorem carries_uint32 (n : UInt32) : uint32.Carries n := by
  have := n.toNat_lt
  exact (carries_within _ (by omega)).map (by simp)

theorem carries_int64 (n : Int64) : int64.Carries n := by
  have := n.le_toInt
  have := n.toInt_lt
  exact (carries_within _ (by omega)).map (by simp)

theorem carries_text {write : α → String} {parse : String → Except String α} {x : α}
    (h : parse (write x) = .ok x) : (text write parse).Carries x :=
  .of_normal (by simp [text, Json.normalize]) (by simp [text, h])

theorem carries_choice {names : List (String × α)} {nameOf : α → String} {x : α}
    (h : choose names (nameOf x) = .ok x) : (choice names nameOf).Carries x :=
  .of_normal (by simp [choice, Json.normalize]) (by simp [choice, h])

theorem carries_any (v : Opaque) : any.Carries v := by
  refine .of_normal v.normal ?_
  unfold any Opaque.ofJson?
  simp only
  split
  · rename_i k hk
    split at hk
    · rename_i k' hk'
      obtain rfl : k' = v.json := Option.some.inj (hk'.symm.trans v.normal)
      rw [← Option.some.inj hk]
    · cases hk
  · rename_i hnone
    split at hnone
    · cases hnone
    · rename_i hnone'
      rw [v.normal] at hnone'
      cases hnone'

theorem carries_none (c : Codec α) : c.option.Carries none :=
  .of_normal (by simp [option, Json.normalize]) rfl

/-- A value that is not written as null is not taken for nothing. -/
theorem carries_some {c : Codec α} {x : α} (h : c.Carries x) (hnull : c.encode x ≠ .null) :
    c.option.Carries (some x) := by
  obtain ⟨hplain, k, hk, hnormal⟩ := h
  have hread : ∀ j, j ≠ Json.null → c.decode j = .ok x → c.option.decode j = .ok (some x) := by
    intro j hj hx
    cases j with
    | null => exact absurd rfl hj
    | _ => simp [option, hx, Except.map]
  exact ⟨hread _ hnull hplain, k, hk, hread _ (Json.normalize_ne_null hnull hk) hnormal⟩

theorem carries_list {c : Codec α} {xs : List α} (h : ∀ x ∈ xs, c.Carries x) :
    c.list.Carries xs := by
  have hitems : decodeItems c.decode (xs.map c.encode) = .ok xs ∧
      ∃ ks, Json.normalizeItems (xs.map c.encode) = some ks ∧ decodeItems c.decode ks = .ok xs := by
    induction xs with
    | nil => exact ⟨rfl, [], rfl, rfl⟩
    | cons x xs ih =>
      obtain ⟨hplain, k, hk, hnormal⟩ := h x (by simp)
      obtain ⟨hplains, ks, hks, hnormals⟩ := ih (fun y hy => h y (by simp [hy]))
      refine ⟨?_, k :: ks, ?_, ?_⟩
      · simp [decodeItems, hplain, hplains, Except.map]
      · simp [Json.normalizeItems, hk, hks]
      · simp [decodeItems, hnormal, hnormals, Except.map]
  obtain ⟨hplain, ks, hks, hnormal⟩ := hitems
  exact ⟨hplain, .array ks, by simp [list, Json.normalize, hks], hnormal⟩

end Codec

/-- The value of a field is written and reads back, or is what the field is without being written. -/
def Field.Carries {α : Type} (f : Field α) (x : α) : Prop :=
  if f.hidden x then f.absent = some x else f.codec.Carries x

namespace Fields

def Carries : {τ : Type} → Fields τ → τ → Prop
  | _, nil, _ => True
  | _, cons f rest, (x, xs) => f.Carries x ∧ rest.Carries xs

/-- A name with what the field of this name reads as its value. -/
def Reads : {τ : Type} → Fields τ → τ → String × Json → Prop
  | _, nil, _, _ => False
  | _, cons f rest, (x, xs), e =>
    if f.name = e.1 then f.codec.decode e.2 = .ok x else rest.Reads xs e

/-- The slots once the fields of some names have been read. -/
def slotsOf : {τ : Type} → (fs : Fields τ) → τ → List String → fs.Slots
  | _, nil, _, _ => ()
  | _, cons f rest, (x, xs), done =>
    (if f.name ∈ done then some x else none, rest.slotsOf xs done)

variable {τ : Type}

theorem slotsOf_nil (fs : Fields τ) (xs : τ) : fs.slotsOf xs [] = fs.noSlots := by
  induction fs with
  | nil => rfl
  | cons f rest ih =>
    simp only [slotsOf, noSlots, ih, List.not_mem_nil, ↓reduceIte]
    rfl

theorem slotsOf_congr (fs : Fields τ) (xs : τ) {done done' : List String}
    (h : ∀ name ∈ fs.names, name ∈ done ↔ name ∈ done') :
    fs.slotsOf xs done = fs.slotsOf xs done' := by
  induction fs with
  | nil => rfl
  | cons f rest ih =>
    have hrest := ih xs.2 (fun name hname => h name (List.mem_cons_of_mem _ hname))
    simp only [slotsOf, hrest, h f.name (by simp [names])]
    rfl

theorem mem_names_of_reads {fs : Fields τ} {xs : τ} {e : String × Json} (h : fs.Reads xs e) :
    e.1 ∈ fs.names := by
  induction fs with
  | nil => exact h.elim
  | cons f rest ih =>
    unfold Reads at h
    split at h
    · rename_i hname
      simp [names, hname]
    · exact List.mem_cons_of_mem _ (ih h)

/-- A field that has not been read yet fills its slot. -/
theorem fill_slotsOf {fs : Fields τ} {xs : τ} {e : String × Json} {done : List String}
    (hnodup : fs.names.Nodup) (h : fs.Reads xs e) (hnew : e.1 ∉ done) :
    fs.fill (fs.slotsOf xs done) e.1 e.2 = .ok (some (fs.slotsOf xs (e.1 :: done))) := by
  induction fs with
  | nil => exact h.elim
  | cons f rest ih =>
    rw [names, List.nodup_cons] at hnodup
    unfold Reads at h
    by_cases hname : f.name = e.1
    · rw [if_pos hname] at h
      have hrest : rest.slotsOf xs.2 (e.1 :: done) = rest.slotsOf xs.2 done := by
        refine rest.slotsOf_congr xs.2 (fun name hmem => ?_)
        have : name ≠ e.1 := fun heq => hnodup.1 (hname ▸ heq ▸ hmem)
        simp [this]
      simp [fill, slotsOf, hname, hnew, h, hrest]
    · rw [if_neg hname] at h
      have := ih hnodup.2 h
      simp [fill, slotsOf, hname, this]

/-- Fields with different names fill their slots in whatever order they come. -/
theorem fillAll_slotsOf {fs : Fields τ} {xs : τ} {es : List (String × Json)} (done : List String)
    (hnodup : fs.names.Nodup) (hreads : ∀ e ∈ es, fs.Reads xs e)
    (hnames : (es.map Prod.fst).Nodup) (hnew : ∀ e ∈ es, e.1 ∉ done) :
    fs.fillAll (fs.slotsOf xs done) es = .ok (fs.slotsOf xs (es.map Prod.fst ++ done)) := by
  induction es generalizing done with
  | nil => rfl
  | cons e es ih =>
    rw [List.map_cons, List.nodup_cons] at hnames
    have hfill := fill_slotsOf hnodup (hreads e (by simp)) (hnew e (by simp))
    have hrest := ih (e.1 :: done) (fun d hd => hreads d (List.mem_cons_of_mem _ hd))
      hnames.2 (fun d hd hmem => by
        rcases List.mem_cons.mp hmem with heq | hmem
        · exact hnames.1 (heq ▸ List.mem_map_of_mem hd)
        · exact hnew d (List.mem_cons_of_mem _ hd) hmem)
    simp only [fillAll, hfill, hrest]
    congr 1
    refine fs.slotsOf_congr xs (fun name _ => ?_)
    simp only [List.map_cons, List.cons_append, List.mem_append, List.mem_cons, or_left_comm]

/-- A record is complete when what it lacks may be left out. -/
theorem complete_slotsOf {fs : Fields τ} {xs : τ} {done : List String} (h : fs.Carries xs)
    (hdone : ∀ e ∈ fs.encode xs, e.1 ∈ done) : fs.complete (fs.slotsOf xs done) = .ok xs := by
  induction fs with
  | nil => rfl
  | cons f rest ih =>
    obtain ⟨x, xs⟩ := xs
    obtain ⟨hx, hxs⟩ := h
    unfold Field.Carries at hx
    unfold encode at hdone
    by_cases hhidden : f.hidden x = true
    · rw [if_pos hhidden] at hx hdone
      have hslot : (if f.name ∈ done then some x else none).or f.absent = some x := by
        rw [hx]
        split <;> rfl
      simp [complete, slotsOf, hslot, ih hxs hdone, Except.map]
    · rw [if_neg hhidden] at hdone
      have hmem : f.name ∈ done := hdone (f.name, f.codec.encode x) (by simp)
      have := ih hxs (fun e he => hdone e (List.mem_cons_of_mem _ he))
      simp [complete, slotsOf, hmem, this, Except.map]

/-- What is written for a record, in any order and each field once, is read as the record. -/
theorem decode_of_reads {fs : Fields τ} {xs : τ} {es : List (String × Json)} (record : String)
    (hnodup : fs.names.Nodup) (h : fs.Carries xs) (hreads : ∀ e ∈ es, fs.Reads xs e)
    (hnames : (es.map Prod.fst).Nodup) (hall : ∀ e ∈ fs.encode xs, e.1 ∈ es.map Prod.fst) :
    fs.decode record (.object es) = .ok xs := by
  have hfill := fillAll_slotsOf [] hnodup hreads hnames (by simp)
  rw [slotsOf_nil, List.append_nil] at hfill
  simp only [decode, hfill, complete_slotsOf h hall]

theorem names_encode_sublist (fs : Fields τ) (xs : τ) :
    ((fs.encode xs).map Prod.fst).Sublist fs.names := by
  induction fs with
  | nil => exact .slnil
  | cons f rest ih =>
    unfold encode
    split
    · exact (ih _).cons _
    · exact (ih _).cons_cons _

theorem reads_cons_of_mem {α : Type} {f : Field α} {rest : Fields τ} {x : α} {xs : τ}
    {e : String × Json} (hnodup : (names (cons f rest)).Nodup) (h : rest.Reads xs e) :
    (cons f rest).Reads (x, xs) e := by
  rw [names, List.nodup_cons] at hnodup
  have hne : f.name ≠ e.1 := fun heq => hnodup.1 (heq ▸ mem_names_of_reads h)
  rw [Reads, if_neg hne]
  exact h

theorem reads_encode {fs : Fields τ} {xs : τ} (hnodup : fs.names.Nodup) (h : fs.Carries xs) :
    ∀ e ∈ fs.encode xs, fs.Reads xs e := by
  induction fs with
  | nil => simp [encode]
  | cons f rest ih =>
    obtain ⟨x, xs⟩ := xs
    obtain ⟨hx, hxs⟩ := h
    have hrest := ih (by simp_all [names]) hxs
    unfold Field.Carries at hx
    unfold encode
    intro e he
    by_cases hhidden : f.hidden x = true
    · rw [if_pos hhidden] at he
      exact reads_cons_of_mem hnodup (hrest e he)
    · rw [if_neg hhidden] at he hx
      rcases List.mem_cons.mp he with rfl | he
      · simpa [Reads] using hx.plain
      · exact reads_cons_of_mem hnodup (hrest e he)

/-- The normal forms of the fields have the same names and read as the same values. -/
theorem normalizeFields_encode {fs : Fields τ} {xs : τ} (hnodup : fs.names.Nodup)
    (h : fs.Carries xs) :
    ∃ gs, Json.normalizeFields (fs.encode xs) = some gs ∧
      gs.map Prod.fst = (fs.encode xs).map Prod.fst ∧ ∀ g ∈ gs, fs.Reads xs g := by
  induction fs with
  | nil => exact ⟨[], rfl, rfl, by simp⟩
  | cons f rest ih =>
    obtain ⟨x, xs⟩ := xs
    obtain ⟨hx, hxs⟩ := h
    obtain ⟨gs, hgs, hnames, hreads⟩ := ih (by simp_all [names]) hxs
    unfold Field.Carries at hx
    unfold encode
    by_cases hhidden : f.hidden x = true
    · rw [if_pos hhidden]
      exact ⟨gs, hgs, hnames, fun g hg => reads_cons_of_mem hnodup (hreads g hg)⟩
    · rw [if_neg hhidden] at hx ⊢
      obtain ⟨k, hk, hread⟩ := hx.normal
      refine ⟨(f.name, k) :: gs, by simp [Json.normalizeFields, hk, hgs], by simp [hnames], ?_⟩
      intro g hg
      rcases List.mem_cons.mp hg with rfl | hg
      · simpa [Reads] using hread
      · exact reads_cons_of_mem hnodup (hreads g hg)

end Fields

namespace Codec
variable {α τ : Type}

/-- A record carries its value if its fields have different names and carry theirs. -/
theorem carries_record {fs : Fields τ} {unpack : α → τ} {pack : τ → α} {x : α} (name : String)
    (hnodup : fs.names.Nodup) (h : fs.Carries (unpack x)) (hpack : pack (unpack x) = x) :
    (record name fs unpack pack).Carries x := by
  have hnames := (fs.names_encode_sublist (unpack x)).nodup hnodup
  obtain ⟨gs, hgs, hsame, hreads⟩ := Fields.normalizeFields_encode hnodup h
  have hsorted : ∀ e ∈ fs.encode (unpack x), e.1 ∈ (Json.sortFields gs).map Prod.fst := by
    intro e he
    have hmem : e.1 ∈ gs.map Prod.fst := hsame ▸ List.mem_map_of_mem he
    obtain ⟨g, hg, heq⟩ := List.mem_map.mp hmem
    exact heq ▸ List.mem_map_of_mem (Json.mem_sortFields_of_nodup (hsame ▸ hnames) hg)
  refine ⟨?_, .object (Json.sortFields gs), by simp [record, Json.normalize, hgs], ?_⟩
  · have := Fields.decode_of_reads name hnodup h (Fields.reads_encode hnodup h) hnames
      (fun e he => List.mem_map_of_mem he)
    simp [record, this, Except.map, hpack]
  · have := Fields.decode_of_reads name hnodup h
      (fun g hg => hreads g (Json.mem_of_mem_sortFields hg))
      (Json.nodup_of_ascending (Json.sortFields_ascending gs)) hsorted
    simp [record, this, Except.map, hpack]

end Codec
end Conformance
