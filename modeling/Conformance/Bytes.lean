namespace Conformance

abbrev Bytes := List UInt8

namespace Bytes

/-- The `width` low bytes of a number, least significant first. -/
def littleEndian : (width : Nat) → Nat → Bytes
  | 0, _ => []
  | width + 1, n => UInt8.ofNat n :: littleEndian width (n / 256)

/-- The `width` low bytes of a number, most significant first. -/
def bigEndian (width n : Nat) : Bytes := (littleEndian width n).reverse

@[simp] theorem length_littleEndian (width n : Nat) : (littleEndian width n).length = width := by
  induction width generalizing n with
  | zero => rfl
  | succ width ih => simp [littleEndian, ih]

@[simp] theorem length_bigEndian (width n : Nat) : (bigEndian width n).length = width := by
  simp [bigEndian]

/-- Equal bytes come from numbers that agree up to the width. -/
theorem littleEndian_inj {width m n : Nat} (hm : m < Nat.pow 256 width) (hn : n < Nat.pow 256 width)
    (h : littleEndian width m = littleEndian width n) : m = n := by
  induction width generalizing m n with
  | zero =>
    rw [Nat.pow] at hm hn
    omega
  | succ width ih =>
    simp only [Nat.pow, Nat.mul_eq] at hm hn
    simp only [littleEndian, List.cons.injEq] at h
    have hlow : m % 256 = n % 256 := by
      have := congrArg UInt8.toNat h.1
      simpa using this
    have hhigh := ih (Nat.div_lt_of_lt_mul (by omega))
      (Nat.div_lt_of_lt_mul (by omega)) h.2
    omega

/-- The bytes of a 64-bit word, least significant first. -/
def ofUInt64 (n : UInt64) : Bytes := littleEndian 8 n.toNat

theorem ofUInt64_inj {m n : UInt64} (h : ofUInt64 m = ofUInt64 n) : m = n :=
  UInt64.toNat_inj.mp (@littleEndian_inj 8 _ _ m.toNat_lt n.toNat_lt h)

/-- A signed word has the bytes of its two's complement. -/
def ofInt64 (n : Int64) : Bytes := ofUInt64 n.toUInt64

/-- The fewest bytes of a number, most significant first; zero takes one byte. -/
def ofNat (n : Nat) : Bytes :=
  if n < 256 then [UInt8.ofNat n] else ofNat (n / 256) ++ [UInt8.ofNat n]
  termination_by n

def utf8 (s : String) : Bytes := s.toByteArray.data.toList

theorem utf8_inj {s t : String} : utf8 s = utf8 t ↔ s = t := by
  constructor
  · intro h
    exact String.toByteArray_inj.mp (ByteArray.ext (Array.ext' h))
  · rintro rfl
    rfl

/-- The characters with these bytes as their numbers. -/
def chars (bytes : Bytes) : List Char := bytes.map (fun b => Char.ofNat b.toNat)

theorem toNat_ofNat_lt {n : Nat} (h : n < 256) : (Char.ofNat n).toNat = n := by
  have hvalid : n.isValidChar := Or.inl (by omega)
  rw [Char.ofNat, dif_pos hvalid]
  rfl

theorem chars_inj {a b : Bytes} (h : chars a = chars b) : a = b := by
  have back : ∀ bytes : Bytes, (chars bytes).map (fun c => UInt8.ofNat c.toNat) = bytes := by
    intro bytes
    induction bytes with
    | nil => rfl
    | cons b bs ih =>
      simp only [chars, List.map_cons, List.map_map] at ih ⊢
      rw [toNat_ofNat_lt b.toNat_lt, UInt8.ofNat_toNat, ih]
  rw [← back a, h, back b]

/-- Bytes as numbers. -/
def nats (bytes : Bytes) : List Nat := bytes.map UInt8.toNat

theorem nats_inj {a b : Bytes} (h : nats a = nats b) : a = b := by
  have back : ∀ bytes : Bytes, (nats bytes).map UInt8.ofNat = bytes := by
    intro bytes
    simp [nats, Function.comp_def]
  rw [← back a, h, back b]

/-- A number in groups of seven bits, least significant first; all groups but the last are marked. -/
def ofVarint (n : Nat) : Bytes :=
  if n < 128 then [UInt8.ofNat n] else UInt8.ofNat (n % 128 + 128) :: ofVarint (n / 128)
  termination_by n

theorem ofVarint_append_inj {m n : Nat} {a b : Bytes} (h : ofVarint m ++ a = ofVarint n ++ b) :
    m = n ∧ a = b := by
  have hlow : ∀ k, k < 256 → (UInt8.ofNat k).toNat = k := fun k hk => by
    simp [UInt8.toNat_ofNat', Nat.mod_eq_of_lt hk]
  induction m using Nat.strongRecOn generalizing n with
  | _ m ih =>
    rw [ofVarint.eq_1 m, ofVarint.eq_1 n] at h
    split at h <;> split at h <;> simp only [List.cons_append, List.nil_append, List.cons.injEq] at h
      <;> have hbyte := congrArg UInt8.toNat h.1
      <;> rw [hlow _ (by omega), hlow _ (by omega)] at hbyte
    · exact ⟨hbyte, h.2⟩
    · omega
    · omega
    · obtain ⟨hdiv, hrest⟩ := ih (m / 128) (by omega) h.2
      exact ⟨by omega, hrest⟩

/-- Bytes after their number. -/
def sized (bytes : Bytes) : Bytes := ofVarint bytes.length ++ bytes

theorem sized_append_inj {a b c d : Bytes} (h : sized a ++ c = sized b ++ d) : a = b ∧ c = d := by
  simp only [sized, List.append_assoc] at h
  obtain ⟨hlen, hrest⟩ := ofVarint_append_inj h
  exact List.append_inj hrest hlen

theorem sized_inj {a b : Bytes} (h : sized a = sized b) : a = b :=
  (sized_append_inj (c := []) (d := []) (by simpa using h)).1

/-- The text with these UTF-8 bytes, if there is one. -/
def utf8Text? (bytes : Bytes) : Option String :=
  String.fromUTF8? (ByteArray.mk bytes.toArray)

end Bytes
end Conformance
