import Conformance.Proofs.Json.Carries
import Conformance.Address
import Conformance.Randomness
import Conformance.TokenAmount

namespace Conformance

namespace Bytes

/-- Bytes below 128 are their own UTF-8. -/
theorem utf8_ofList_chars {bs : Bytes} (h : ∀ b ∈ bs, b.toNat < 128) :
    utf8 (String.ofList (chars bs)) = bs := by
  have hflat : (chars bs).flatMap String.utf8EncodeChar = bs := by
    induction bs with
    | nil => rfl
    | cons b bs ih =>
      have hb := h b (by simp)
      have hval : (Char.ofNat b.toNat).val.toNat = b.toNat := toNat_ofNat_lt (by omega)
      have hchar : String.utf8EncodeChar (Char.ofNat b.toNat) = [b] := by
        simp only [String.utf8EncodeChar, hval]
        rw [if_pos (by omega), UInt8.ofNat_toNat]
      have hrest := ih (fun c hc => h c (by simp [hc]))
      simp only [chars] at hrest
      simp [chars, hchar, hrest]
  simp [utf8, List.utf8Encode, hflat]

end Bytes

namespace Numeral

/-- A numeral starts with a digit. -/
theorem digits_eq_cons (n : Nat) : ∃ d cs, d < 10 ∧ digits n = digitChar d :: cs := by
  fun_induction digits n with
  | case1 n h => exact ⟨n, [], h, rfl⟩
  | case2 n h ih =>
    obtain ⟨d, cs, hd, heq⟩ := ih
    exact ⟨d, cs ++ [digitChar (n % 10)], hd, by rw [heq]; rfl⟩

theorem digitChar_ne {d : Nat} (h : d < 10) :
    digitChar d ≠ '+' ∧ digitChar d ≠ '-' ∧ digitChar d ≠ '_' :=
  (by decide : ∀ d, d < 10 → digitChar d ≠ '+' ∧ digitChar d ≠ '-' ∧ digitChar d ≠ '_') d h

theorem readNat_digits {limit n : Nat} (h : n ≤ limit) : readNat limit (digits n) = .ok n := by
  have hread := readDigits_digits .tooLarge h
  obtain ⟨d, cs, hd, heq⟩ := digits_eq_cons n
  rw [heq] at hread ⊢
  have hne := (digitChar_ne hd).1
  unfold readNat
  split <;> simp_all

theorem readUInt64_digits (n : UInt64) : readUInt64 (digits n.toNat) = .ok n := by
  have := n.toNat_lt
  simp [readUInt64, readNat_digits (show n.toNat ≤ 18446744073709551615 by omega), Except.map]

theorem readSpaced_cons {acc d : Nat} {cs : List Char} (h : d < 10) :
    readSpaced acc (digitChar d :: cs) = readSpaced (acc * 10 + d) cs := by
  have hne := (digitChar_ne h).2.2
  rw [readSpaced.eq_def]
  split
  · simp_all
  · simp_all
  · rename_i c cs' _ heq
    obtain ⟨rfl, rfl⟩ := List.cons.inj heq
    simp [digitValue?_digitChar h]

theorem readSpaced_digits_append (acc n : Nat) (rest : List Char) :
    readSpaced acc (digits n ++ rest) =
      readSpaced (acc * Nat.pow 10 (digits n).length + n) rest := by
  fun_induction digits n generalizing acc rest with
  | case1 n h => simp [readSpaced_cons h]
  | case2 n h ih =>
    rw [List.append_assoc, ih, List.singleton_append,
      readSpaced_cons (Nat.mod_lt n (by decide))]
    simp only [List.length_append, List.length_singleton, Nat.pow, Nat.mul_eq, ← Nat.mul_assoc,
      Nat.add_mul]
    congr 1
    omega

theorem readUnbounded_digits (n : Nat) : readUnbounded (digits n) = .ok n := by
  have hread := readSpaced_digits_append 0 n []
  simp only [List.append_nil, Nat.zero_mul, Nat.zero_add] at hread
  obtain ⟨d, cs, hd, heq⟩ := digits_eq_cons n
  rw [heq] at hread ⊢
  have hne := digitChar_ne hd
  unfold readUnbounded
  simp_all [readSpaced]

end Numeral

namespace Hex

theorem digit_lt (n : Nat) (h : n < 16) : (digit n).toNat < 128 :=
  (by decide : ∀ n, n < 16 → (digit n).toNat < 128) n h

theorem digits_ascii (bytes : Bytes) : ∀ b ∈ digits bytes, b.toNat < 128 := by
  intro b hb
  obtain ⟨c, _, hc⟩ := List.mem_flatMap.mp hb
  have := c.toNat_lt
  simp only [List.mem_cons, List.not_mem_nil, or_false] at hc
  rcases hc with rfl | rfl
  · exact digit_lt _ (by omega)
  · exact digit_lt _ (by omega)

theorem decode_encode (bytes : Bytes) : decode (encode bytes) = .ok bytes := by
  rw [decode, encode, Bytes.utf8_ofList_chars (digits_ascii bytes), decodeBytes_digits]

end Hex

namespace Base64

theorem symbolValue?_symbol {n : Nat} (h : n < 64) :
    symbolValue? (symbol n) = some n ∧ symbol n ≠ pad ∧ (symbol n).toNat < 128 :=
  (by decide : ∀ n, n < 64 →
    symbolValue? (symbol n) = some n ∧ symbol n ≠ pad ∧ (symbol n).toNat < 128) n h

theorem symbols_ascii (bs : Bytes) : ∀ b ∈ symbols bs, b.toNat < 128 := by
  have hpad : pad.toNat < 128 := by decide
  have hlow : ∀ n, (symbol (n % 64)).toNat < 128 := fun n =>
    (symbolValue?_symbol (Nat.mod_lt n (by decide))).2.2
  have hhigh : ∀ n, n < 64 → (symbol n).toNat < 128 := fun n hn => (symbolValue?_symbol hn).2.2
  fun_induction symbols bs with
  | case1 => simp
  | case2 a n =>
    have ha := a.toNat_lt
    have := hhigh (n / 64) (by omega)
    simp [hlow, hpad, this]
  | case3 a b n =>
    have ha := a.toNat_lt
    have hb := b.toNat_lt
    have := hhigh (n / 4096) (by omega)
    simp [hlow, hpad, this]
  | case4 a b c rest n ih =>
    have ha := a.toNat_lt
    have hb := b.toNat_lt
    have hc := c.toNat_lt
    have := hhigh (n / 262144) (by omega)
    simp only [List.mem_cons, forall_eq_or_imp]
    exact ⟨this, hlow _, hlow _, hlow _, ih⟩

theorem length_symbols (bs : Bytes) : (symbols bs).length % 4 = 0 := by
  fun_induction symbols bs with
  | case1 => rfl
  | case2 => simp
  | case3 => simp
  | case4 a b c rest n ih =>
    simp only [List.length_cons]
    omega

theorem readGroup_symbol {start read n : Nat} {bs : Bytes} (h : n < 64) :
    readGroup start read 0 (symbol n :: bs) =
      (readGroup start (read + 1) 0 bs).map (fun (vs, k) => (n :: vs, k)) := by
  obtain ⟨hvalue, hpad, _⟩ := symbolValue?_symbol h
  simp [readGroup, hvalue, hpad]

/-- The bytes of a word of three bytes are found again in its sextets. -/
theorem ofSextets_eq {n a b c d : Nat} (h : ((a * 64 + b) * 64 + c) * 64 + d = n) :
    ofSextets a b c d = [UInt8.ofNat (n / 65536), UInt8.ofNat (n / 256), UInt8.ofNat n] := by
  simp only [ofSextets, h]

theorem readLast_one (start : Nat) (a : UInt8) : readLast start (symbols [a]) = .ok [a] := by
  have ha := a.toNat_lt
  have hhigh : a.toNat * 16 / 64 < 64 := by omega
  have hlow : a.toNat * 16 % 64 < 64 := by omega
  have hrest : a.toNat * 16 % 64 % 16 = 0 := by omega
  have hgroup : readGroup start 0 0 (symbols [a]) =
      .ok ([a.toNat * 16 / 64, a.toNat * 16 % 64], 2) := by
    rw [symbols, readGroup_symbol hhigh, readGroup_symbol hlow]
    rfl
  have hword := ofSextets_eq (n := a.toNat * 65536) (a := a.toNat * 16 / 64)
    (b := a.toNat * 16 % 64) (c := 0) (d := 0) (by omega)
  simp [readLast, hgroup, hrest, hword]

theorem readLast_two (start : Nat) (a b : UInt8) :
    readLast start (symbols [a, b]) = .ok [a, b] := by
  have ha := a.toNat_lt
  have hb := b.toNat_lt
  generalize hn : (a.toNat * 256 + b.toNat) * 4 = n
  have hhigh : n / 4096 < 64 := by omega
  have hmid : n / 64 % 64 < 64 := by omega
  have hlow : n % 64 < 64 := by omega
  have hrest : n % 64 % 4 = 0 := by omega
  have hgroup : readGroup start 0 0 (symbols [a, b]) =
      .ok ([n / 4096, n / 64 % 64, n % 64], 1) := by
    rw [symbols]
    simp only [hn]
    rw [readGroup_symbol hhigh, readGroup_symbol hmid, readGroup_symbol hlow]
    rfl
  have hword := ofSextets_eq (n := n * 64) (a := n / 4096) (b := n / 64 % 64) (c := n % 64)
    (d := 0) (by omega)
  have h₁ : n * 64 / 65536 = a.toNat := by omega
  have h₂ : UInt8.ofNat (n * 64 / 256) = b := UInt8.toNat_inj.mp (by simp; omega)
  simp [readLast, hgroup, hrest, hword, h₁, h₂]

/-- Four symbols give back the three bytes that they are made from. -/
theorem ofSextets_symbols {a b c : UInt8} {n : Nat}
    (hn : (a.toNat * 256 + b.toNat) * 256 + c.toNat = n) :
    ofSextets (n / 262144) (n / 4096 % 64) (n / 64 % 64) (n % 64) = [a, b, c] := by
  have ha := a.toNat_lt
  have hb := b.toNat_lt
  have hc := c.toNat_lt
  have h₁ : UInt8.ofNat (n / 65536) = a := UInt8.toNat_inj.mp (by simp; omega)
  have h₂ : UInt8.ofNat (n / 256) = b := UInt8.toNat_inj.mp (by simp; omega)
  have h₃ : UInt8.ofNat n = c := UInt8.toNat_inj.mp (by simp; omega)
  rw [ofSextets_eq (n := n) (by omega), h₁, h₂, h₃]

theorem readGroups_symbols (start : Nat) (bs : Bytes) :
    readGroups start (symbols bs) = .ok bs := by
  fun_induction symbols bs generalizing start with
  | case1 => rfl
  | case2 a => exact readLast_one start a
  | case3 a b => exact readLast_two start a b
  | case4 a b c rest n ih =>
    have ha := a.toNat_lt
    have hb := b.toNat_lt
    have hc := c.toNat_lt
    have hhigh : n / 262144 < 64 := by omega
    have hmid : n / 4096 % 64 < 64 := Nat.mod_lt _ (by decide)
    have hmid' : n / 64 % 64 < 64 := Nat.mod_lt _ (by decide)
    have hlow : n % 64 < 64 := Nat.mod_lt _ (by decide)
    have hword := ofSextets_symbols (a := a) (b := b) (c := c) (n := n) rfl
    cases hrest : symbols rest with
    | nil =>
      have hread := ih start
      rw [hrest] at hread
      obtain rfl : [] = rest := Except.ok.inj hread
      have hgroup : readGroup start 0 0 [symbol (n / 262144), symbol (n / 4096 % 64),
          symbol (n / 64 % 64), symbol (n % 64)] =
            .ok ([n / 262144, n / 4096 % 64, n / 64 % 64, n % 64], 0) := by
        rw [readGroup_symbol hhigh, readGroup_symbol hmid, readGroup_symbol hmid',
          readGroup_symbol hlow]
        rfl
      simp [readGroups, readLast, hgroup, hword]
    | cons e es =>
      have hread := ih (start + 4)
      rw [hrest] at hread
      simp [readGroups, (symbolValue?_symbol hhigh).1, (symbolValue?_symbol hmid).1,
        (symbolValue?_symbol hmid').1, (symbolValue?_symbol hlow).1, hread, hword, Except.map]

theorem decode_encode (bytes : Bytes) : decode (encode bytes) = .ok bytes := by
  have hlen := length_symbols bytes
  rw [decode, encode, Bytes.utf8_ofList_chars (symbols_ascii bytes), decodeBytes]
  split
  · rw [if_neg (by omega)]
    exact readGroups_symbols 0 bytes
  · rename_i hnone
    rw [List.getLast?_eq_none_iff] at hnone
    rw [← readGroups_symbols 0 bytes, hnone]
    rfl

end Base64

namespace TokenAmount

theorem parse_toText (a : TokenAmount) : parse a.toText = .ok a := by
  simp [parse, toText, Numeral.ofNat, Numeral.readUnbounded_digits]

theorem carries (a : TokenAmount) : codec.Carries a :=
  Codec.carries_text (by simp [parse_toText])

end TokenAmount

namespace Address

/-- An address that some key or actor can have: keys have 48 bytes. -/
def Proper : Address → Prop
  | bls key => key.length = 48
  | _ => True

instance (a : Address) : Decidable a.Proper := by
  unfold Proper
  split <;> infer_instance

theorem parse_toText {a : Address} (h : a.Proper) : parse a.toText = .ok a := by
  cases a with
  | id n => simp [parse, toText, chars, Numeral.readUInt64_digits]
  | secp256k1 p =>
    have hread := Hex.decode_encode p.bytes
    rw [Hex.encode] at hread
    simp [parse, toText, chars, readPayload, hread, p.length_bytes, Except.map]
  | actor p =>
    have hread := Hex.decode_encode p.bytes
    rw [Hex.encode] at hread
    simp [parse, toText, chars, readPayload, hread, p.length_bytes, Except.map]
  | bls key =>
    have hread := Hex.decode_encode key
    rw [Hex.encode] at hread
    simp only [Proper] at h
    simp [parse, toText, chars, hread, ofBlsKey, h]

theorem carries {a : Address} (h : a.Proper) : codec.Carries a :=
  Codec.carries_text (by simp [parse_toText h])

end Address

namespace Cid

theorem carries (c : Cid) : codec.Carries c := (Codec.carries_string c.text).map rfl

end Cid

namespace Codec

theorem carries_bytes (data : Bytes) : bytes.Carries data :=
  carries_text (by simp [Base64.decode_encode])

end Codec

namespace Randomness

theorem parse_encode (r : Randomness) : parse (Hex.encode r.seed) = .ok r := by
  simp [parse, Hex.decode_encode, r.length_seed]

theorem carries (r : Randomness) : codec.Carries r :=
  Codec.carries_record "Randomness" (by decide)
    ⟨Codec.carries_text (by simp [parse_encode]), trivial⟩ rfl

end Randomness
end Conformance
