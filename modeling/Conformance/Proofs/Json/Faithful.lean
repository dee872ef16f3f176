import Conformance.Proofs.Json.Carries

namespace Conformance

theorem ok_of_map {ε α β : Type} {r : Except ε α} {f : α → β} {y : β} (h : r.map f = .ok y) :
    ∃ x, r = .ok x ∧ f x = y := by
  cases r with
  | error e => cases h
  | ok x => exact ⟨x, rfl, Except.ok.inj h⟩

theorem map_eq_ok {ε α β : Type} {r : Except ε α} {f : α → β} {y : β} :
    r.map f = .ok y ↔ ∃ x, r = .ok x ∧ f x = y := by
  refine ⟨ok_of_map, ?_⟩
  rintro ⟨x, rfl, rfl⟩
  rfl

namespace Codec
variable {α β : Type}

/-- Whatever is read survives being written. -/
def Faithful (c : Codec α) : Prop := ∀ v x, c.decode v = .ok x → c.Carries x

/-- Writes again what was read. -/
def rewrite (c : Codec α) (v : Json) : Except Json.DecodeError Json := (c.decode v).map c.encode

theorem Faithful.of_carries {c : Codec α} (h : ∀ x, c.Carries x) : c.Faithful := fun _ x _ => h x

/-- To write again what was written again changes nothing. -/
theorem Faithful.rewrite_eq {c : Codec α} (h : c.Faithful) {v w : Json} (hw : c.rewrite v = .ok w) :
    c.rewrite w = .ok w := by
  obtain ⟨x, hx, rfl⟩ := ok_of_map hw
  rw [rewrite, (h v x hx).plain]
  rfl

theorem faithful_text {write : α → String} {parse : String → Except String α}
    (h : ∀ s x, parse s = .ok x → parse (write x) = .ok x) : (text write parse).Faithful := by
  intro v x hx
  cases v with
  | string s =>
    cases hs : parse s with
    | error e => simp [text, hs] at hx
    | ok y =>
      simp only [text, hs, Except.ok.injEq] at hx
      exact carries_text (hx ▸ h s y hs)
  | _ => simp [text] at hx

theorem mem_of_decodeItems {decode : Json → Except Json.DecodeError α} {items : List Json}
    {xs : List α} (h : decodeItems decode items = .ok xs) :
    ∀ x ∈ xs, ∃ v, decode v = .ok x := by
  induction items generalizing xs with
  | nil =>
    obtain rfl : [] = xs := Except.ok.inj h
    intro x hx
    cases hx
  | cons v items ih =>
    unfold decodeItems at h
    cases hv : decode v with
    | error e => simp [hv] at h
    | ok y =>
      simp only [hv] at h
      obtain ⟨ys, hitems, rfl⟩ := ok_of_map h
      intro x hx
      rcases List.mem_cons.mp hx with rfl | hx
      · exact ⟨v, hv⟩
      · exact ih hitems x hx

theorem Faithful.list {c : Codec α} (h : c.Faithful) : c.list.Faithful := by
  intro v xs hxs
  cases v with
  | array items =>
    refine carries_list (fun x hx => ?_)
    obtain ⟨v, hv⟩ := mem_of_decodeItems hxs x hx
    exact h v x hv
  | _ => simp [Codec.list] at hxs

/-- What is read from anything but null has to be written as something but null. -/
theorem Faithful.option {c : Codec α} (h : c.Faithful)
    (hnull : ∀ v x, v ≠ .null → c.decode v = .ok x → c.encode x ≠ .null) : c.option.Faithful := by
  intro v r hr
  cases r with
  | none => exact carries_none c
  | some x =>
    have hv : v ≠ .null := by
      rintro rfl
      simp [Codec.option] at hr
    have hx : c.decode v = .ok x := by
      have hmap : (c.decode v).map some = .ok (some x) := by
        cases v with
        | null => exact absurd rfl hv
        | _ => exact hr
      obtain ⟨y, hy, hsome⟩ := ok_of_map hmap
      rw [hy, Option.some.inj hsome]
    exact carries_some (h v x hx) (hnull v x hv hx)

theorem any_ne_null {v : Json} {x : Opaque} (hv : v ≠ .null) (h : any.decode v = .ok x) :
    any.encode x ≠ .null := by
  have hx : Opaque.ofJson? v = some x := by
    cases ho : Opaque.ofJson? v with
    | none => simp [any, ho] at h
    | some y => simpa [any, ho] using h
  have hnormal : v.normalize = some x.json := by
    unfold Opaque.ofJson? at hx
    split at hx
    · rename_i k hk
      rw [hk, ← Option.some.inj hx]
    · cases hx
  exact Json.normalize_ne_null hv hnormal

end Codec

/-- A field carries what it reads and what it is without being read. -/
structure Field.Faithful {α : Type} (f : Field α) : Prop where
  read : ∀ v x, f.codec.decode v = .ok x → f.Carries x
  absent : ∀ x, f.absent = some x → f.Carries x
  beyond : ∀ x, f.beyond = some x → f.Carries x

namespace Fields
variable {α τ : Type}

def Faithful : {τ : Type} → Fields τ → Prop
  | _, nil => True
  | _, cons f rest => f.Faithful ∧ rest.Faithful

/-- What has been read so far is carried. -/
def SlotsCarry : {τ : Type} → (fs : Fields τ) → fs.Slots → Prop
  | _, nil, _ => True
  | _, cons (α := α) f rest, slots =>
    let (slot, slots) : Option α × rest.Slots := slots
    (∀ x, slot = some x → f.Carries x) ∧ rest.SlotsCarry slots

theorem slotsCarry_noSlots (fs : Fields τ) : fs.SlotsCarry fs.noSlots := by
  induction fs with
  | nil => trivial
  | cons f rest ih => exact ⟨fun x hx => (nomatch hx), ih⟩

theorem slotsCarry_fill {fs : Fields τ} (h : fs.Faithful) {slots slots' : fs.Slots} {name : String}
    {v : Json} (hslots : fs.SlotsCarry slots) (hfill : fs.fill slots name v = .ok (some slots')) :
    fs.SlotsCarry slots' := by
  induction fs with
  | nil => cases hfill
  | cons f rest ih =>
    obtain ⟨slot, slots⟩ := slots
    obtain ⟨hslot, hrest⟩ := hslots
    simp only [fill] at hfill
    split at hfill
    · split at hfill
      · cases hfill
      · split at hfill
        · rename_i x hx
          obtain rfl := Option.some.inj (Except.ok.inj hfill)
          exact ⟨fun y hy => Option.some.inj hy ▸ h.1.read v x hx, hrest⟩
        · cases hfill
    · split at hfill
      · rename_i slots' hslots'
        obtain rfl := Option.some.inj (Except.ok.inj hfill)
        exact ⟨hslot, ih h.2 hrest hslots'⟩
      · cases hfill
      · cases hfill

theorem slotsCarry_fillAll {fs : Fields τ} (h : fs.Faithful) {es : List (String × Json)}
    {slots slots' : fs.Slots} (hslots : fs.SlotsCarry slots)
    (hfill : fs.fillAll slots es = .ok slots') : fs.SlotsCarry slots' := by
  induction es generalizing slots with
  | nil => exact Except.ok.inj hfill ▸ hslots
  | cons e es ih =>
    unfold fillAll at hfill
    split at hfill
    · cases hfill
    · rename_i next hnext
      exact ih (slotsCarry_fill h hslots hnext) hfill
    · split at hfill
      · cases hfill
      · split at hfill
        · exact ih hslots hfill
        · cases hfill

theorem carries_of_complete {fs : Fields τ} (h : fs.Faithful) {slots : fs.Slots} {xs : τ}
    (hslots : fs.SlotsCarry slots) (hxs : fs.complete slots = .ok xs) : fs.Carries xs := by
  induction fs with
  | nil => trivial
  | cons f rest ih =>
    obtain ⟨slot, slots⟩ := slots
    obtain ⟨hslot, hrest⟩ := hslots
    simp only [complete] at hxs
    split at hxs
    · cases hxs
    · rename_i x hx
      obtain ⟨ys, hys, rfl⟩ := ok_of_map hxs
      refine ⟨?_, ih h.2 hrest hys⟩
      rcases Option.or_eq_some_iff.mp hx with hread | ⟨_, habsent⟩
      · exact hslot x hread
      · exact h.1.absent x habsent

theorem carries_of_ofItems {record : String} {total : Nat} {fs : Fields τ} (h : fs.Faithful)
    {n : Nat} {items left : List Json} {xs : τ}
    (hxs : ofItems record total fs n items = .ok (xs, left)) : fs.Carries xs := by
  induction fs generalizing n items left with
  | nil => trivial
  | cons f rest ih =>
    -- The first field is read, or stands for what is beyond the list.
    obtain ⟨x, ys, items', left', hx, hys, rfl⟩ : ∃ x ys items' left', f.Carries x ∧
        ofItems record total rest (n + 1) items' = .ok (ys, left') ∧ (x, ys) = xs := by
      cases items with
      | nil =>
        simp only [ofItems] at hxs
        split at hxs
        · cases hxs
        · rename_i x hx
          obtain ⟨⟨ys, left'⟩, hys, heq⟩ := ok_of_map hxs
          exact ⟨x, ys, [], left', h.1.beyond x hx, hys, (Prod.mk.inj heq).1⟩
      | cons v items =>
        simp only [ofItems] at hxs
        split at hxs
        · cases hxs
        · rename_i x hx
          obtain ⟨⟨ys, left'⟩, hys, heq⟩ := ok_of_map hxs
          exact ⟨x, ys, items, left', h.1.read v x hx, hys, (Prod.mk.inj heq).1⟩
    exact ⟨hx, ih h.2 hys⟩

/-- The fields of a record that was read are carried. -/
theorem carries_of_decode {fs : Fields τ} (h : fs.Faithful) {record : String} {v : Json} {xs : τ}
    (hxs : fs.decode record v = .ok xs) : fs.Carries xs := by
  cases v with
  | object es =>
    unfold decode at hxs
    simp only at hxs
    split at hxs
    · rename_i slots hslots
      exact carries_of_complete h (slotsCarry_fillAll h fs.slotsCarry_noSlots hslots) hxs
    · cases hxs
  | array items =>
    unfold decode at hxs
    simp only at hxs
    split at hxs
    · rename_i ys hys
      exact Except.ok.inj hxs ▸ carries_of_ofItems h hys
    · cases hxs
    · cases hxs
  | _ => simp [decode] at hxs

theorem faithful_required {name : String} {c : Codec α} {rest : Fields τ} (h : c.Faithful)
    (hrest : rest.Faithful) : (required name c rest).Faithful :=
  ⟨⟨h, fun _ hx => (nomatch hx), fun _ hx => (nomatch hx)⟩, hrest⟩

/-- Without a value a sparse field is not written, and that is what it reads then. -/
theorem faithful_sparse {name : String} {c : Codec α} {rest : Fields τ} (h : c.option.Faithful)
    (hrest : rest.Faithful) : (sparse name c rest).Faithful := by
  have hnone : Field.Carries
      { name, codec := c.option, absent := some none, beyond := some none,
        hidden := Option.isNone } none := rfl
  refine ⟨⟨fun v x hx => ?_, fun x hx => Option.some.inj hx ▸ hnone,
    fun x hx => Option.some.inj hx ▸ hnone⟩, hrest⟩
  cases x with
  | none => exact hnone
  | some x => exact h v (some x) hx

end Fields

namespace Codec
variable {α τ : Type}

/-- A record is faithful if its fields have different names and are faithful. -/
theorem faithful_record {fs : Fields τ} {unpack : α → τ} {pack : τ → α} (name : String)
    (hnodup : fs.names.Nodup) (h : fs.Faithful) (hpack : ∀ x, pack (unpack x) = x)
    (hunpack : ∀ xs, unpack (pack xs) = xs) : (record name fs unpack pack).Faithful := by
  intro v x hx
  obtain ⟨xs, hxs, rfl⟩ := ok_of_map hx
  have hcarries := Fields.carries_of_decode h hxs
  exact carries_record name hnodup (by rwa [hunpack]) (hpack _)

end Codec
end Conformance
