import Conformance.Proofs.Json.Faithful
import Conformance.Proofs.Json.Texts

namespace Conformance

namespace Numeral

/-- The number of a run of digits. -/
def value (ds : List Char) : Nat := ds.foldl (fun n d => 10 * n + (d.toNat - '0'.toNat)) 0

/-- At least one character, and only digits. -/
def IsRun (ds : List Char) : Prop := ds ≠ [] ∧ ∀ d ∈ ds, '0' ≤ d ∧ d ≤ '9'

/-- The numerals of a number: digits, after a plus sign or without one. -/
inductive Spells : List Char → Nat → Prop
  | plain {ds : List Char} (h : IsRun ds) : Spells ds (value ds)
  | signed {ds : List Char} (h : IsRun ds) : Spells ('+' :: ds) (value ds)

theorem digitValue?_eq_some {c : Char} {d : Nat} :
    digitValue? c = some d ↔ ('0' ≤ c ∧ c ≤ '9') ∧ d = c.toNat - '0'.toNat := by
  unfold digitValue?
  split
  · rename_i h
    simp only [Option.some.injEq, h, and_self, true_and]
    exact eq_comm
  · rename_i h
    simp [h]

theorem le_foldl_value (acc : Nat) (ds : List Char) :
    acc ≤ ds.foldl (fun n d => 10 * n + (d.toNat - '0'.toNat)) acc := by
  induction ds generalizing acc with
  | nil => exact Nat.le_refl acc
  | cons d ds ih =>
    have hrest := ih (10 * acc + (d.toNat - '0'.toNat))
    simp only [List.foldl_cons]
    omega

/-- Digits are read if there is nothing else and the number is in range. -/
theorem readDigits_eq_ok {limit acc n : Nat} {excess : NumeralError} {ds : List Char}
    (hacc : acc ≤ limit) : readDigits limit excess acc ds = .ok n ↔
      (∀ d ∈ ds, '0' ≤ d ∧ d ≤ '9') ∧
        ds.foldl (fun n d => 10 * n + (d.toNat - '0'.toNat)) acc = n ∧ n ≤ limit := by
  induction ds generalizing acc with
  | nil =>
    simp only [readDigits, Except.ok.injEq, List.not_mem_nil, false_implies, implies_true,
      List.foldl_nil, true_and]
    constructor
    · rintro rfl
      exact ⟨rfl, hacc⟩
    · exact And.left
  | cons d ds ih =>
    rw [readDigits]
    cases hd : digitValue? d with
    | none =>
      have hother : ¬ ('0' ≤ d ∧ d ≤ '9') := by
        intro hdigit
        cases hd.symm.trans (digitValue?_eq_some.mpr ⟨hdigit, rfl⟩)
      simp only [reduceCtorEq, List.forall_mem_cons, hother, false_and]
    | some k =>
      obtain ⟨hdigit, rfl⟩ := digitValue?_eq_some.mp hd
      have hsame : acc * 10 + (d.toNat - '0'.toNat) = 10 * acc + (d.toNat - '0'.toNat) := by omega
      simp only [List.forall_mem_cons, hdigit, and_self, true_and, List.foldl_cons, hsame]
      split
      · rename_i hle
        exact ih hle
      · -- What is read after it only makes the number greater.
        rename_i hgt
        have hgrows := le_foldl_value (10 * acc + (d.toNat - '0'.toNat)) ds
        simp only [reduceCtorEq, false_iff, not_and]
        intro _ hn
        omega

theorem readDigits_run {limit n : Nat} {ds : List Char} (hne : ds ≠ []) :
    readDigits limit .tooLarge 0 ds = .ok n ↔ IsRun ds ∧ value ds = n ∧ n ≤ limit := by
  rw [readDigits_eq_ok (Nat.zero_le limit), IsRun, value]
  simp only [ne_eq, hne, not_false_eq_true, true_and]

/-- A plus sign is no digit. -/
theorem IsRun.head_ne_plus {ds : List Char} (h : IsRun ('+' :: ds)) : False :=
  absurd (h.2 '+' List.mem_cons_self) (by decide)

/-- A number is read from its numerals if it is in range, and from nothing else. -/
theorem readNat_eq_ok {limit n : Nat} {cs : List Char} :
    readNat limit cs = .ok n ↔ Spells cs n ∧ n ≤ limit := by
  unfold readNat
  split
  · refine iff_of_false (by simp) ?_
    rintro ⟨⟨h⟩, _⟩
    exact h.1 rfl
  · refine iff_of_false (by simp) ?_
    rintro ⟨h | h, _⟩
    · exact h.head_ne_plus
    · exact h.1 rfl
  · rename_i ds hne
    rw [readDigits_run (fun h => hne (h ▸ rfl))]
    constructor
    · rintro ⟨h, rfl, hle⟩
      exact ⟨.signed h, hle⟩
    · rintro ⟨h | h, hle⟩
      · exact h.head_ne_plus.elim
      · exact ⟨h, rfl, hle⟩
  · rename_i hnil hplus hsigned
    rw [readDigits_run hnil]
    constructor
    · rintro ⟨h, rfl, hle⟩
      exact ⟨.plain h, hle⟩
    · rintro ⟨h | h, hle⟩
      · exact ⟨h, rfl, hle⟩
      · exact absurd rfl (hsigned _)

theorem readUInt64_eq_ok {n : UInt64} {cs : List Char} :
    readUInt64 cs = .ok n ↔ Spells cs n.toNat := by
  have hmax := n.toNat_lt
  simp only [readUInt64, map_eq_ok, readNat_eq_ok]
  constructor
  · rintro ⟨k, ⟨h, hle⟩, rfl⟩
    rwa [UInt64.toNat_ofNat', Nat.mod_eq_of_lt (by omega)]
  · intro h
    exact ⟨n.toNat, ⟨h, by omega⟩, UInt64.ofNat_toNat⟩

end Numeral

namespace Hex

/-- A text that is, in small letters, the one that the bytes are written as. -/
def Spells (cs : List Char) (bytes : Bytes) : Prop :=
  cs.map Char.toLower = Bytes.chars (digits bytes)

/-- A capital letter as the small one, byte by byte. -/
def lower (b : UInt8) : UInt8 := if 65 ≤ b ∧ b ≤ 90 then b + 32 else b

theorem digitValue?_eq_some {b : UInt8} {n : Nat} :
    digitValue? b = some n ↔ n < 16 ∧ lower b = digit n := by
  have hfound : ∀ k < 256, ∀ n < 16,
      digitValue? (UInt8.ofNat k) = some n ↔ lower (UInt8.ofNat k) = digit n := by
    decide +kernel
  have hsmall : ∀ k < 256, ∀ n ∈ digitValue? (UInt8.ofNat k), n < 16 := by decide +kernel
  have hb := b.toNat_lt
  have hfound := hfound b.toNat hb n
  have hsmall := hsmall b.toNat hb n
  rw [UInt8.ofNat_toNat] at hfound hsmall
  constructor
  · intro h
    exact ⟨hsmall h, (hfound (hsmall h)).mp h⟩
  · rintro ⟨hn, h⟩
    exact (hfound hn).mpr h

theorem digit_inj {m n : Nat} (hm : m < 16) (hn : n < 16) : digit m = digit n ↔ m = n :=
  ⟨fun h => Option.some.inj ((digitValue?_digit hm).symm.trans (h ▸ digitValue?_digit hn)),
    congrArg digit⟩

/-- A byte is told by its two digits. -/
theorem digit_pair {x y : Nat} (hx : x < 16) (hy : y < 16) (b : UInt8) :
    UInt8.ofNat (16 * x + y) = b ↔
      digit x = digit (b.toNat / 16) ∧ digit y = digit (b.toNat % 16) := by
  have hb := b.toNat_lt
  rw [digit_inj hx (by omega), digit_inj hy (by omega), ← UInt8.toNat_inj, UInt8.toNat_ofNat',
    Nat.mod_eq_of_lt (by omega)]
  omega

/-- Pairs of digits of either case are read, and nothing else. -/
theorem readPairs_eq_ok {position : Nat} {bs bytes : Bytes} :
    readPairs position bs = .ok bytes ↔ bs.map lower = digits bytes := by
  fun_induction readPairs position bs generalizing bytes with
  | case1 => cases bytes <;> simp [digits]
  | case2 => cases bytes <;> simp [digits]
  | case3 position high low rest hhigh =>
    refine iff_of_false (by simp) (fun h => ?_)
    cases bytes with
    | nil => simp [digits] at h
    | cons b bs =>
      have hb := b.toNat_lt
      simp only [digits, List.map_cons, List.flatMap_cons, List.cons_append, List.cons.injEq] at h
      cases hhigh.symm.trans (digitValue?_eq_some.mpr ⟨by omega, h.1⟩)
  | case4 position high low rest x hlow hhigh =>
    refine iff_of_false (by simp) (fun h => ?_)
    cases bytes with
    | nil => simp [digits] at h
    | cons b bs =>
      simp only [digits, List.map_cons, List.flatMap_cons, List.cons_append, List.cons.injEq] at h
      cases hlow.symm.trans (digitValue?_eq_some.mpr ⟨Nat.mod_lt _ (by decide), h.2.1⟩)
  | case5 position high low rest x y hlow hhigh ih =>
    obtain ⟨hx, hhigh⟩ := digitValue?_eq_some.mp hhigh
    obtain ⟨hy, hlow⟩ := digitValue?_eq_some.mp hlow
    rw [map_eq_ok]
    simp only [ih]
    cases bytes with
    | nil => simp [digits]
    | cons b bs =>
      simp only [digits, List.map_cons, List.flatMap_cons, List.cons_append, List.nil_append,
        List.cons.injEq, hhigh, hlow, digit_pair hx hy]
      constructor
      · rintro ⟨rest, hrest, hpair, rfl⟩
        exact ⟨hpair.1, hpair.2, hrest⟩
      · rintro ⟨hhigh, hlow, hrest⟩
        exact ⟨bs, hrest, ⟨hhigh, hlow⟩, rfl⟩

theorem decodeBytes_eq_ok {bs bytes : Bytes} :
    decodeBytes bs = .ok bytes ↔ bs.map lower = digits bytes := by
  unfold decodeBytes
  split
  · rename_i hodd
    refine iff_of_false (by simp) (fun h => ?_)
    have hlength := congrArg List.length h
    rw [List.length_map, length_digits] at hlength
    omega
  · exact readPairs_eq_ok

theorem lower_ascii {b : UInt8} : (lower b).toNat < 128 ↔ b.toNat < 128 := by
  have hall : ∀ k < 256, (lower (UInt8.ofNat k)).toNat < 128 ↔ (UInt8.ofNat k).toNat < 128 := by
    decide +kernel
  have hb := hall b.toNat b.toNat_lt
  rwa [UInt8.ofNat_toNat] at hb

/-- Letters and bytes become small alike. -/
theorem map_toLower_chars {bs : Bytes} (h : ∀ b ∈ bs, b.toNat < 128) :
    (Bytes.chars bs).map Char.toLower = Bytes.chars (bs.map lower) := by
  have hall : ∀ k < 128, (Char.ofNat (UInt8.ofNat k).toNat).toLower =
      Char.ofNat (lower (UInt8.ofNat k)).toNat := by
    decide +kernel
  simp only [Bytes.chars, List.map_map]
  refine List.map_congr_left (fun b hb => ?_)
  have hsmall := hall b.toNat (h b hb)
  rwa [UInt8.ofNat_toNat] at hsmall

theorem spells_chars {bs bytes : Bytes} (h : ∀ b ∈ bs, b.toNat < 128) :
    Spells (Bytes.chars bs) bytes ↔ bs.map lower = digits bytes := by
  rw [Spells, map_toLower_chars h]
  exact ⟨Bytes.chars_inj, congrArg Bytes.chars⟩

theorem toNat_lt_of_toLower {c : Char} (h : c.toLower.toNat < 128) : c.toNat < 128 := by
  unfold Char.toLower at h
  split at h
  · rename_i hupper
    have hle := UInt32.le_iff_toNat_le.mp hupper.2
    have hlast : 'Z'.val.toNat = 90 := rfl
    change c.val.toNat < 128
    omega
  · exact h

/-- A text that spells bytes has no character beyond ASCII. -/
theorem Spells.ascii {cs : List Char} {bytes : Bytes} (h : Spells cs bytes) :
    ∃ bs : Bytes, (∀ b ∈ bs, b.toNat < 128) ∧ Bytes.chars bs = cs := by
  have hcs : ∀ c ∈ cs, c.toNat < 128 := by
    intro c hc
    have hmem := List.mem_map_of_mem (f := Char.toLower) hc
    rw [h] at hmem
    obtain ⟨b, hb, heq⟩ := List.mem_map.mp hmem
    have hascii := digits_ascii bytes b hb
    refine toNat_lt_of_toLower ?_
    rwa [← heq, Bytes.toNat_ofNat_lt (by omega)]
  refine ⟨cs.map (fun c => UInt8.ofNat c.toNat), ?_, ?_⟩
  · intro b hb
    obtain ⟨c, hc, rfl⟩ := List.mem_map.mp hb
    have hsmall := hcs c hc
    rw [UInt8.toNat_ofNat', Nat.mod_eq_of_lt (by omega)]
    exact hsmall
  · rw [Bytes.chars, List.map_map]
    refine (List.map_congr_left (fun c hc => ?_)).trans (List.map_id cs)
    have hsmall := hcs c hc
    rw [Function.comp_apply, UInt8.toNat_ofNat', Nat.mod_eq_of_lt (by omega), Char.ofNat_toNat]
    rfl

theorem chars_utf8 {s : String} (h : ∀ b ∈ Bytes.utf8 s, b.toNat < 128) :
    Bytes.chars (Bytes.utf8 s) = s.toList := by
  have hsame := Bytes.utf8_inj.mp (Bytes.utf8_ofList_chars h)
  rw [← String.toList_ofList (l := Bytes.chars (Bytes.utf8 s)), hsame]

/-- Bytes are read from the texts that spell them, and from nothing else. -/
theorem decode_eq_ok {cs : List Char} {bytes : Bytes} :
    decode (String.ofList cs) = .ok bytes ↔ Spells cs bytes := by
  rw [decode, decodeBytes_eq_ok]
  constructor
  · intro h
    have hascii : ∀ b ∈ Bytes.utf8 (String.ofList cs), b.toNat < 128 := by
      intro b hb
      rw [← lower_ascii]
      exact digits_ascii bytes _ (h ▸ List.mem_map_of_mem hb)
    have hchars := chars_utf8 hascii
    rw [String.toList_ofList] at hchars
    rw [← hchars, spells_chars hascii]
    exact h
  · intro h
    obtain ⟨bs, hascii, rfl⟩ := h.ascii
    rw [Bytes.utf8_ofList_chars hascii, ← spells_chars hascii]
    exact h

end Hex

namespace Address

/-- The texts of addresses: the network, a protocol, and the numeral of an ID or the digits of a
payload. -/
inductive Spells : List Char → Address → Prop
  | id {cs : List Char} {n : UInt64} (h : Numeral.Spells cs n.toNat) :
    Spells ('t' :: '0' :: cs) (.id n)
  | secp256k1 {cs : List Char} {p : Payload} (h : Hex.Spells cs p.bytes) :
    Spells ('t' :: '1' :: cs) (.secp256k1 p)
  | actor {cs : List Char} {p : Payload} (h : Hex.Spells cs p.bytes) :
    Spells ('t' :: '2' :: cs) (.actor p)
  | bls {cs : List Char} {key : Bytes} (h : Hex.Spells cs key) (hlength : key.length = 48) :
    Spells ('t' :: '3' :: cs) (.bls key)

theorem readPayload_eq_ok {cs : List Char} {p : Payload} :
    readPayload (String.ofList cs) = .ok p ↔ Hex.Spells cs p.bytes := by
  rw [← Hex.decode_eq_ok, readPayload]
  split
  · rename_i hread
    simp [hread]
  · rename_i bytes hread
    rw [hread, Except.ok.injEq]
    constructor
    · intro h
      split at h
      · cases h
        rfl
      · cases h
    · rintro rfl
      rw [dif_pos p.length_bytes]

theorem Spells.proper {cs : List Char} {a : Address} (h : Spells cs a) : a.Proper := by
  cases h with
  | bls _ hlength => exact hlength
  | _ => trivial

theorem spells_of_parse {s : String} {a : Address} (h : parse s = .ok a) : Spells s.toList a := by
  unfold parse at h
  split at h
  · rename_i c rest hs
    rw [hs]
    split at h
    · rename_i hc
      subst hc
      split at h
      · rename_i n hread
        cases h
        exact .id (Numeral.readUInt64_eq_ok.mp hread)
      · cases h
    split at h
    · rename_i hc
      subst hc
      obtain ⟨p, hread, rfl⟩ := ok_of_map h
      exact .secp256k1 (readPayload_eq_ok.mp hread)
    split at h
    · rename_i hc
      subst hc
      obtain ⟨p, hread, rfl⟩ := ok_of_map h
      exact .actor (readPayload_eq_ok.mp hread)
    split at h
    · rename_i hc
      subst hc
      split at h
      · rename_i key hread
        unfold ofBlsKey at h
        split at h
        · rename_i hlength
          cases h
          exact .bls (Hex.decode_eq_ok.mp hread) hlength
        · cases h
      · cases h
    · cases h
  · cases h
  · cases h

theorem parse_of_spells {s : String} {a : Address} (h : Spells s.toList a) : parse s = .ok a := by
  unfold parse
  generalize s.toList = cs at h
  cases h with
  | id h =>
    simp only [↓reduceIte, Numeral.readUInt64_eq_ok.mpr h]
  | secp256k1 h =>
    simp only [Char.reduceEq, ↓reduceIte, readPayload_eq_ok.mpr h]
    rfl
  | actor h =>
    simp only [Char.reduceEq, ↓reduceIte, readPayload_eq_ok.mpr h]
    rfl
  | bls h hlength =>
    simp only [Char.reduceEq, ↓reduceIte, Hex.decode_eq_ok.mpr h, ofBlsKey, hlength]

/-- The text of the address that a text is read as. -/
def normalize (s : String) : Except Error String := (parse s).map toText

/-- A text is read just if the grammar has it. Every address is read from its own text and no two
have the same, so that to write what was read changes nothing more, and changes no address. -/
theorem texts_of_addresses (s : String) :
    (∀ a, parse s = .ok a ↔ Spells s.toList a) ∧
    ((∃ e, parse s = .error e) ↔ ∀ a, ¬ Spells s.toList a) ∧
    (∀ a : Address, a.Proper → parse a.toText = .ok a) ∧
    (∀ a b : Address, a ≠ b → a.toText ≠ b.toText) ∧
    ∀ t, normalize s = .ok t → parse t = parse s ∧ normalize t = .ok t := by
  have hread : ∀ a, parse s = .ok a ↔ Spells s.toList a :=
    fun a => ⟨spells_of_parse, parse_of_spells⟩
  refine ⟨hread, ?_, fun a => parse_toText, fun a b hne h => hne (toText_inj h), fun t h => ?_⟩
  · simp only [← hread]
    cases parse s <;> simp
  · obtain ⟨a, ha, rfl⟩ := ok_of_map h
    have hback := parse_toText (spells_of_parse ha).proper
    exact ⟨hback.trans ha.symm, map_eq_ok.mpr ⟨a, hback, rfl⟩⟩

/-- Signs, leading zeros and capital letters are read and not written. -/
theorem texts_of_addresses_lenient :
    (parse "t0+007" = .ok (.id 7) ∧ normalize "t0+007" = .ok "t07" ∧
      parse "t07" = parse "t0+007" ∧ normalize "t07" = .ok "t07") ∧
    (∀ a, ¬ Spells "t0-7".toList a) ∧
    (let key := Address.bls (List.replicate 48 0xAA)
     parse (String.ofList ('t' :: '3' :: List.replicate 96 'A')) = .ok key ∧
      parse key.toText = .ok key ∧ key.toText ≠ (Address.id 7).toText) := by
  obtain ⟨hread, _, _, _, hnormal⟩ := texts_of_addresses "t0+007"
  have htext : "t0+007".toList = ['t', '0', '+', '0', '0', '7'] := rfl
  have hid : parse "t0+007" = .ok (.id 7) := by
    rw [hread, htext]
    exact .id (.signed ⟨by decide, by simp⟩)
  have hnormalized : normalize "t0+007" = .ok "t07" := by
    rw [normalize, hid]
    exact congrArg Except.ok (by decide +kernel)
  obtain ⟨hkey, _, hback, hdistinct, _⟩ :=
    texts_of_addresses (String.ofList ('t' :: '3' :: List.replicate 96 'A'))
  have hcapitals : Hex.Spells (List.replicate 96 'A') (List.replicate 48 0xAA) := by
    unfold Hex.Spells
    decide +kernel
  have hminus : ∃ e, parse "t0-7" = .error e := ⟨.invalidId "t0-7" .invalidDigit, rfl⟩
  refine ⟨⟨hid, hnormalized, hnormal _ hnormalized⟩, (texts_of_addresses "t0-7").2.1.mp hminus,
    (hkey _).mpr ?_, hback _ (by decide), hdistinct _ _ (by decide)⟩
  rw [String.toList_ofList]
  exact .bls hcapitals (by decide)

end Address
end Conformance
