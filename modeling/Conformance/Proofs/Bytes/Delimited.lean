import Mathlib.Algebra.GroupWithZero.Nat
import Conformance.Cid
import Conformance.Message

namespace Conformance

namespace Bytes
variable {α β : Type}

/-- Two values written before anything are told apart, and so is what follows them. -/
def Delimited (write : α → Bytes) : Prop :=
  ∀ ⦃a b : α⦄ ⦃r r' : Bytes⦄, write a ++ r = write b ++ r' → a = b ∧ r = r'

theorem Delimited.comp {write : α → Bytes} (h : Delimited write) {f : β → α}
    (hf : ∀ a b, f a = f b → a = b) : Delimited (fun b => write (f b)) := by
  intro a b r r' heq
  obtain ⟨hsame, hrest⟩ := h heq
  exact ⟨hf a b hsame, hrest⟩

/-- Words of one width need no mark. -/
theorem delimited_of_length {write : α → Bytes} {n : Nat} (hlen : ∀ a, (write a).length = n)
    (hinj : ∀ a b, write a = write b → a = b) : Delimited write := by
  intro a b r r' heq
  obtain ⟨hsame, hrest⟩ := List.append_inj heq ((hlen a).trans (hlen b).symm)
  exact ⟨hinj a b hsame, hrest⟩

theorem delimited_ofUInt64 : Delimited ofUInt64 :=
  delimited_of_length (fun n => length_littleEndian 8 n.toNat) (fun _ _ => ofUInt64_inj)

theorem ofInt64_inj {m n : Int64} (h : ofInt64 m = ofInt64 n) : m = n := by
  cases m; cases n
  exact congrArg Int64.ofUInt64 (ofUInt64_inj h)

theorem delimited_ofInt64 : Delimited ofInt64 :=
  delimited_of_length (fun n => length_littleEndian 8 n.toUInt64.toNat) (fun _ _ => ofInt64_inj)

theorem delimited_sized : Delimited sized := fun _ _ _ _ => sized_append_inj

theorem delimited_text {text : α → String} (h : ∀ a b, text a = text b → a = b) :
    Delimited (fun a => sized (utf8 (text a))) :=
  delimited_sized.comp (fun a b heq => h a b (utf8_inj.mp heq))

theorem Delimited.pair {write : α → Bytes} {write' : β → Bytes} (h : Delimited write)
    (h' : Delimited write') : Delimited (fun e : α × β => write e.1 ++ write' e.2) := by
  intro a b r r' heq
  rw [List.append_assoc, List.append_assoc] at heq
  obtain ⟨hfst, heq⟩ := h heq
  obtain ⟨hsnd, hrest⟩ := h' heq
  exact ⟨Prod.ext hfst hsnd, hrest⟩

/-- As many values as are announced. -/
theorem Delimited.flatMap {write : α → Bytes} (h : Delimited write) {as bs : List α}
    {r r' : Bytes} (hlen : as.length = bs.length)
    (heq : as.flatMap write ++ r = bs.flatMap write ++ r') : as = bs ∧ r = r' := by
  induction as generalizing bs with
  | nil =>
    obtain rfl := List.eq_nil_of_length_eq_zero hlen.symm
    exact ⟨rfl, heq⟩
  | cons a as ih =>
    obtain ⟨b, bs, rfl⟩ := List.exists_cons_of_length_eq_add_one hlen.symm
    simp only [List.flatMap_cons, List.append_assoc] at heq
    obtain ⟨rfl, htail⟩ := h heq
    obtain ⟨rfl, hrest⟩ := ih (Nat.succ_inj.mp hlen) htail
    exact ⟨rfl, hrest⟩

theorem Delimited.counted {write : α → Bytes} (h : Delimited write) :
    Delimited (fun as : List α => ofVarint as.length ++ as.flatMap write) := by
  intro as bs r r' heq
  rw [List.append_assoc, List.append_assoc] at heq
  obtain ⟨hlen, heq⟩ := ofVarint_append_inj heq
  exact h.flatMap hlen heq

/-- How many bytes a field can have for its eight bytes of length to be right. -/
def maxField : Nat := 18446744073709551616

@[simp] theorem length_field (bytes : Bytes) : (field bytes).length = 8 + bytes.length := by
  simp [field]

theorem field_append_inj {a b r r' : Bytes} (ha : a.length < maxField) (hb : b.length < maxField)
    (h : field a ++ r = field b ++ r') : a = b ∧ r = r' := by
  simp only [field, List.append_assoc] at h
  obtain ⟨hcount, hrest⟩ := List.append_inj h (by simp)
  exact List.append_inj hrest (@littleEndian_inj 8 _ _ ha hb hcount)

theorem fields_append (as bs : List Bytes) : fields (as ++ bs) = fields as ++ fields bs :=
  List.flatMap_append

theorem prefix_fields {as bs : List Bytes} (h : as <+: bs) : fields as <+: fields bs := by
  obtain ⟨cs, rfl⟩ := h
  exact ⟨fields cs, (fields_append as cs).symm⟩

/-- An empty field has the bytes of its length. -/
theorem fields_eq_nil_iff {as : List Bytes} : fields as = [] ↔ as = [] := by
  constructor
  · intro h
    cases as with
    | nil => rfl
    | cons a as =>
      have hlen := congrArg List.length h
      simp only [fields, List.flatMap_cons, List.length_append, length_field,
        List.length_nil] at hlen
      omega
  · rintro rfl
    rfl

/-- What follows some fields in the bytes of fields is the bytes of the fields that follow them. -/
theorem rest_of_fields {as bs : List Bytes} {r : Bytes} (has : ∀ a ∈ as, a.length < maxField)
    (hbs : ∀ b ∈ bs, b.length < maxField) (h : fields as ++ r = fields bs) :
    ∃ cs, as ++ cs = bs ∧ r = fields cs := by
  induction as generalizing bs with
  | nil => exact ⟨bs, rfl, h⟩
  | cons a as ih =>
    cases bs with
    | nil =>
      have hnone : fields (a :: as) = [] := (List.append_eq_nil_iff.mp h).1
      exact absurd (fields_eq_nil_iff.mp hnone) (List.cons_ne_nil a as)
    | cons b bs =>
      simp only [fields, List.flatMap_cons, List.append_assoc] at h
      obtain ⟨rfl, hrest⟩ := field_append_inj (has a (by simp)) (hbs b (by simp)) h
      obtain ⟨cs, rfl, hr⟩ := ih (fun c hc => has c (List.mem_cons_of_mem _ hc))
        (fun c hc => hbs c (List.mem_cons_of_mem _ hc)) hrest
      exact ⟨cs, rfl, hr⟩

section Short
variable {as bs : List Bytes} (has : ∀ a ∈ as, a.length < maxField)
  (hbs : ∀ b ∈ bs, b.length < maxField)
include has hbs

/-- Fields are determined by their bytes, however many there are. -/
theorem fields_inj (h : fields as = fields bs) : as = bs := by
  obtain ⟨cs, rfl, hr⟩ := rest_of_fields has hbs ((List.append_nil _).trans h)
  rw [fields_eq_nil_iff.mp hr.symm, List.append_nil]

theorem prefix_fields_iff : fields as <+: fields bs ↔ as <+: bs := by
  refine ⟨fun h => ?_, prefix_fields⟩
  obtain ⟨r, h⟩ := h
  obtain ⟨cs, hcs, _⟩ := rest_of_fields has hbs h
  exact ⟨cs, hcs⟩

end Short

theorem length_fields (as : List Bytes) :
    (fields as).length = (as.map (fun a => 8 + a.length)).sum := by
  simp [fields, List.length_flatMap]

/-- The field of a word of eight bytes has sixteen, and they tell the word. -/
theorem field_word {α : Type} {write : α → Bytes} (hlen : ∀ a, (write a).length = 8)
    (hinj : ∀ a b, write a = write b → a = b) (a b : α) :
    (field (write a)).length = 16 ∧ (field (write a) = field (write b) ↔ a = b) := by
  refine ⟨by rw [length_field, hlen], fun h => ?_, congrArg (fun a => field (write a))⟩
  exact hinj a b (List.append_inj_right h (by simp))

/-- Fields written one behind the other are determined by their bytes, and so are those that the
bytes begin with. A field takes eight bytes more than it has, so that none vanishes, and words take
sixteen. -/
theorem fields_decodable :
    (∀ as : List Bytes, as.foldl (fun written a => written ++ field a) [] = fields as) ∧
    (∀ as bs : List Bytes, (∀ a ∈ as, a.length < 2 ^ 64) → (∀ b ∈ bs, b.length < 2 ^ 64) →
      (fields as = fields bs ↔ as = bs) ∧ (fields as <+: fields bs ↔ as <+: bs)) ∧
    (∀ as : List Bytes, as ≠ [] → fields as ≠ []) ∧
    (∀ as bs : List Bytes, as <+: bs → fields as <+: fields bs) ∧
    (∀ as : List Bytes, (fields as).length = (as.map (fun a => 8 + a.length)).sum) ∧
    (∀ m n : UInt64, (field (ofUInt64 m)).length = 16 ∧
      (field (ofUInt64 m) = field (ofUInt64 n) ↔ m = n)) ∧
    (∀ m n : Int64, (field (ofInt64 m)).length = 16 ∧
      (field (ofInt64 m) = field (ofInt64 n) ↔ m = n)) := by
  refine ⟨fun as => List.flatMap_eq_foldl.symm, fun as bs has hbs => ⟨?_, prefix_fields_iff has hbs⟩,
    fun as => mt fields_eq_nil_iff.mp, fun as bs => prefix_fields, length_fields, ?_, ?_⟩
  · exact ⟨fields_inj has hbs, congrArg fields⟩
  · exact field_word (fun n => length_littleEndian 8 n.toNat) (fun _ _ => ofUInt64_inj)
  · exact field_word (fun n => length_littleEndian 8 n.toUInt64.toNat) (fun _ _ => ofInt64_inj)

/-- The same five letters cut in two ways, and an empty field that still shows. -/
theorem fields_decodable_cuts :
    fields [[97, 98], [99], [100, 101]] ≠ fields [[97], [98, 99], [100, 101]] ∧
    ¬ fields [[97, 98]] <+: fields [[97, 98, 99], [100, 101]] ∧
    fields [[97, 98]] <+: fields [[97, 98], [], [99, 100, 101]] ∧
    fields [[]] ≠ [] ∧ (fields [ofUInt64 7, [], [97]]).length = 33 := by
  obtain ⟨_, hunique, hnonempty, hbegins, hlength, _⟩ := fields_decodable
  refine ⟨fun h => ?_, fun h => ?_, hbegins _ _ (by decide), hnonempty _ (by decide), ?_⟩
  · exact absurd ((hunique _ _ (by decide) (by decide)).1.mp h) (by decide)
  · exact absurd ((hunique _ _ (by decide) (by decide)).2.mp h) (by decide)
  · rw [hlength]
    decide

/-- Two byte strings with one digest. -/
def Collide (a b : Bytes) : Prop := a ≠ b ∧ sha256 a = sha256 b

end Bytes

/-- Identifiers of bytes are as good as the bytes where digests are. -/
theorem Cid.ofBytes_inj {a b : Bytes} (h : ¬ Bytes.Collide a b) :
    Cid.ofBytes a = Cid.ofBytes b ↔ a = b := by
  constructor
  · intro heq
    have htext : "b" ++ Hex.encode (sha256 a) = "b" ++ Hex.encode (sha256 b) :=
      congrArg Cid.text heq
    have hdigest := Hex.encode_inj (String.append_right_inj _ |>.mp htext)
    exact Decidable.byContradiction (fun hne => h ⟨hne, hdigest⟩)
  · rintro rfl
    rfl

end Conformance
