import Conformance.Proofs.Instant.Calendar
import Conformance.Proofs.Json.Texts

namespace Conformance.Instant

/-- The number that digits stand for. -/
def valueOf (cs : List Char) : Nat := cs.foldl (fun n c => n * 10 + (c.toNat - 48)) 0

theorem isDigit_digitChar {d : Nat} (h : d < 10) : isDigit (Numeral.digitChar d) = true :=
  (by decide : ∀ d, d < 10 → isDigit (Numeral.digitChar d) = true) d h

theorem toNat_digitChar {d : Nat} (h : d < 10) : (Numeral.digitChar d).toNat - 48 = d :=
  (by decide : ∀ d, d < 10 → (Numeral.digitChar d).toNat - 48 = d) d h

theorem isBlank_of_isDigit {c : Char} (h : isDigit c = true) : isBlank c = false := by
  simp only [isDigit, Bool.and_eq_true, decide_eq_true_eq, Char.le_def, UInt32.le_iff_toNat_le] at h
  have hlow : 48 ≤ c.toNat := h.1
  have hhigh : c.toNat ≤ 57 := h.2
  simp only [isBlank, Bool.or_eq_false_iff, Bool.and_eq_false_iff, decide_eq_false_iff_not,
    beq_eq_false_iff_ne]
  omega

theorem isDigit_digits (n : Nat) : ∀ c ∈ Numeral.digits n, isDigit c = true := by
  fun_induction Numeral.digits n with
  | case1 n h =>
    intro c hc
    rw [List.mem_singleton.mp hc]
    exact isDigit_digitChar h
  | case2 n h ih =>
    intro c hc
    rcases List.mem_append.mp hc with hc | hc
    · exact ih c hc
    · rw [List.mem_singleton.mp hc]
      exact isDigit_digitChar (Nat.mod_lt n (by decide))

theorem valueOf_digits (n : Nat) : valueOf (Numeral.digits n) = n := by
  unfold valueOf
  fun_induction Numeral.digits n with
  | case1 n h => simp [toNat_digitChar h]
  | case2 n h ih =>
    rw [List.foldl_append, ih]
    simp only [List.foldl_cons, List.foldl_nil, toNat_digitChar (Nat.mod_lt n (by decide : 0 < 10))]
    omega

theorem length_digits_le {width n : Nat} (hwidth : 0 < width) (h : n < Nat.pow 10 width) :
    (Numeral.digits n).length ≤ width := by
  fun_induction Numeral.digits n generalizing width with
  | case1 n _ => exact hwidth
  | case2 n hlarge ih =>
    obtain ⟨k, rfl⟩ : ∃ k, width = k + 1 := ⟨width - 1, by omega⟩
    simp only [Nat.pow, Nat.mul_eq] at h
    have hk : 0 < k := by
      rcases Nat.eq_zero_or_pos k with rfl | hk
      · simp only [Nat.pow] at h
        omega
      · exact hk
    have := ih hk (by omega)
    simp only [List.length_append, List.length_singleton]
    omega

section Padded
variable {width n : Nat}

theorem toList_padded (width n : Nat) : (padded width n).toList =
    List.replicate (width - (Numeral.digits n).length) '0' ++ Numeral.digits n := by
  simp [padded]

theorem isDigit_padded (width n : Nat) : ∀ c ∈ (padded width n).toList, isDigit c = true := by
  intro c hc
  rw [toList_padded] at hc
  rcases List.mem_append.mp hc with hc | hc
  · rw [(List.mem_replicate.mp hc).2]
    rfl
  · exact isDigit_digits n c hc

theorem valueOf_padded (width n : Nat) : valueOf (padded width n).toList = n := by
  have hzeros : ∀ k, (List.replicate k '0').foldl (fun n c => n * 10 + (c.toNat - 48)) 0 = 0 := by
    intro k
    induction k with
    | zero => rfl
    | succ k ih => simpa [List.replicate_succ] using ih
  rw [toList_padded, valueOf, List.foldl_append, hzeros]
  exact valueOf_digits n

theorem padded_eq_cons (width n : Nat) :
    ∃ c cs, isDigit c = true ∧ (padded width n).toList = c :: cs := by
  cases hcs : (padded width n).toList with
  | nil =>
    obtain ⟨d, ds, _, hdigits⟩ := Numeral.digits_eq_cons n
    simp [toList_padded, hdigits] at hcs
  | cons c cs => exact ⟨c, cs, isDigit_padded width n c (by simp [hcs]), rfl⟩

theorem padded_ne_nil (width n : Nat) : (padded width n).toList ≠ [] := by
  obtain ⟨c, cs, _, hcons⟩ := padded_eq_cons width n
  rw [hcons]
  exact List.cons_ne_nil c cs

theorem length_padded (hwidth : 0 < width) (h : n < Nat.pow 10 width) :
    (padded width n).toList.length = width := by
  have := length_digits_le hwidth h
  rw [toList_padded, List.length_append, List.length_replicate]
  omega

end Padded

/-- A text that does not go on with a digit. -/
def Ended (cs : List Char) : Prop := cs.takeWhile isDigit = []

theorem number_append {width : Nat} {ds rest : List Char} (hne : ds ≠ [])
    (hdigits : ∀ c ∈ ds, isDigit c = true) (hsmall : valueOf ds ≤ 9223372036854775807)
    (hfits : ds.length = width ∨ ds.length ≤ width ∧ Ended rest) :
    number width (ds ++ rest) = .ok (valueOf ds, rest) := by
  have hspan : ((ds ++ rest).take width).takeWhile isDigit = ds := by
    rcases hfits with rfl | ⟨hle, hended⟩
    · rw [List.take_left]
      have hall : (ds ++ []).takeWhile isDigit = ds ++ [].takeWhile isDigit :=
        List.takeWhile_append_of_pos hdigits
      simpa using hall
    · have htail : (rest.take (width - ds.length)).takeWhile isDigit = [] := by
        cases rest with
        | nil => simp
        | cons c cs => cases width - ds.length <;> simp_all [Ended, List.takeWhile_cons]
      rw [List.take_append, List.take_of_length_le hle,
        List.takeWhile_append_of_pos hdigits, htail, List.append_nil]
  have hnonempty : (ds ++ rest).isEmpty = false := by
    cases ds with
    | nil => exact absurd rfl hne
    | cons c cs => rfl
  have hgoes : ds.isEmpty = false := by
    cases ds with
    | nil => exact absurd rfl hne
    | cons c cs => rfl
  have hspan : ((ds ++ rest).take width).takeWhile (fun c => '0' ≤ c && c ≤ '9') = ds := hspan
  simp only [number, hspan, hnonempty, hgoes, List.drop_left]
  exact if_pos hsmall

theorem number_padded {width count n : Nat} {rest : List Char} (hwidth : 0 < width)
    (hn : n < Nat.pow 10 width) (hsmall : n ≤ 9223372036854775807)
    (hfits : width = count ∨ width ≤ count ∧ Ended rest) :
    number count ((padded width n).toList ++ rest) = .ok (n, rest) := by
  have hread := number_append (padded_ne_nil width n) (isDigit_padded width n) (by rwa [valueOf_padded])
    (by rwa [length_padded hwidth hn] : _ = count ∨ _ ≤ count ∧ Ended rest)
  rwa [valueOf_padded] at hread

theorem trimStart_padded (width n : Nat) (rest : List Char) :
    Text.trimStart ((padded width n).toList ++ rest) = (padded width n).toList ++ rest := by
  obtain ⟨c, cs, hdigit, hcons⟩ := padded_eq_cons width n
  simp [hcons, Text.trimStart, isBlank_of_isDigit hdigit]

theorem part_padded {low high n : Nat} {rest : List Char} (hn : n < 100)
    (hwithin : low ≤ n ∧ n ≤ high) :
    part low high ((padded 2 n).toList ++ rest) = .ok (n, rest) := by
  unfold part
  rw [trimStart_padded, number_padded (by decide) hn (by omega) (.inl rfl)]
  exact if_pos hwithin

/-- After a sign digits are read to their end. -/
theorem number_signed {n : Nat} {rest : List Char} (hsmall : n ≤ 9223372036854775807)
    (hrest : Ended rest) :
    number ((padded 4 n).toList ++ rest).length ((padded 4 n).toList ++ rest) = .ok (n, rest) := by
  have hfits : (padded 4 n).toList.length ≤ ((padded 4 n).toList ++ rest).length := by simp
  have hread := number_append (padded_ne_nil 4 n) (isDigit_padded 4 n) (by rwa [valueOf_padded])
    (.inr ⟨hfits, hrest⟩)
  rwa [valueOf_padded] at hread

section Year
variable {cs rest : List Char} {n : Nat}

theorem year_minus (h : number cs.length cs = .ok (n, rest)) (hn : n ≤ 2147483648) :
    year ('-' :: cs) = .ok (-(n : Int), rest) := by
  have hword : -2147483648 ≤ -(n : Int) ∧ -(n : Int) ≤ 2147483647 := by omega
  have hstart : Text.trimStart ('-' :: cs) = '-' :: cs := rfl
  unfold year
  simp only [hstart, h, bind, Except.bind, pure, Except.pure]
  exact if_pos hword

theorem year_plus (h : number cs.length cs = .ok (n, rest)) (hn : n ≤ 2147483647) :
    year ('+' :: cs) = .ok ((n : Int), rest) := by
  have hword : -2147483648 ≤ (n : Int) ∧ (n : Int) ≤ 2147483647 := by omega
  have hstart : Text.trimStart ('+' :: cs) = '+' :: cs := rfl
  unfold year
  simp only [hstart, h, bind, Except.bind, pure, Except.pure]
  exact if_pos hword

theorem year_unsigned {c : Char} (hdigit : isDigit c = true)
    (h : number 4 (c :: cs) = .ok (n, rest)) (hn : n ≤ 2147483647) :
    year (c :: cs) = .ok ((n : Int), rest) := by
  have hword : -2147483648 ≤ (n : Int) ∧ (n : Int) ≤ 2147483647 := by omega
  have hstart : Text.trimStart (c :: cs) = c :: cs := by
    simp [Text.trimStart, isBlank_of_isDigit hdigit]
  unfold year
  simp only [hstart]
  split
  · rename_i heq
    rw [(List.cons.inj heq).1] at hdigit
    exact absurd hdigit (by decide)
  · rename_i heq
    rw [(List.cons.inj heq).1] at hdigit
    exact absurd hdigit (by decide)
  · simp only [h, bind, Except.bind, pure, Except.pure]
    exact if_pos hword

end Year

theorem year_yearText {y : Int} {rest : List Char} (hlow : -1000000 < y) (hhigh : y < 1000000)
    (hrest : Ended rest) : year ((yearText y).toList ++ rest) = .ok (y, rest) := by
  have hsigned := number_signed (n := y.natAbs) (by omega) hrest
  unfold yearText
  split
  · rename_i hfour
    have hread : number 4 ((padded 4 y.natAbs).toList ++ rest) = .ok (y.natAbs, rest) :=
      number_padded (by decide) (show y.natAbs < 10000 by omega) (by omega) (.inl rfl)
    obtain ⟨c, cs, hdigit, hcons⟩ := padded_eq_cons 4 y.natAbs
    rw [hcons, List.cons_append] at hread ⊢
    rw [year_unsigned hdigit hread (by omega), Int.natAbs_of_nonneg hfour.1]
  · split
    · have hyear := year_minus hsigned (by omega)
      rw [show (-(y.natAbs : Int)) = y by omega] at hyear
      simpa using hyear
    · have hyear := year_plus hsigned (by omega)
      rw [show (y.natAbs : Int) = y by omega] at hyear
      simpa using hyear

theorem fraction_point {places k nanos : Nat} (hplaces : 0 < places) (hnine : places ≤ 9)
    (hk : k < Nat.pow 10 places) (hnanos : k * Nat.pow 10 (9 - places) = nanos) :
    fraction ('.' :: ((padded places k).toList ++ ['Z'])) = .ok (nanos, ['Z']) := by
  have hbound : k < Nat.pow 10 9 :=
    Nat.lt_of_lt_of_le hk (Nat.pow_le_pow_right (by decide) hnine)
  have hread : number 9 ((padded places k).toList ++ ['Z']) = .ok (k, ['Z']) :=
    number_padded hplaces hk (Nat.le_of_lt (Nat.lt_trans hbound (by decide))) (.inr ⟨hnine, rfl⟩)
  have hlength : ((padded places k).toList ++ ['Z']).length - ['Z'].length = places := by
    simp [length_padded hplaces hk]
  unfold fraction
  simp only [hread, bind, Except.bind, pure, Except.pure, hlength, hnanos]
  rfl

/-- The fraction of a second is written with as few places as say all, and read with any. -/
theorem fraction_fractionText {nanos : Nat} (h : nanos < 1000000000) :
    fraction ((fractionText nanos).toList ++ ['Z']) = .ok (nanos, ['Z']) := by
  unfold fractionText
  split
  · rename_i hzero
    rw [hzero]
    rfl
  · split
    · have hread : fraction ('.' :: ((padded 3 (nanos / 1000000)).toList ++ ['Z'])) = _ :=
        fraction_point (by decide) (by decide) (show nanos / 1000000 < 1000 by omega)
          (show nanos / 1000000 * 1000000 = nanos by omega)
      simpa using hread
    · split
      · have hread : fraction ('.' :: ((padded 6 (nanos / 1000)).toList ++ ['Z'])) = _ :=
          fraction_point (by decide) (by decide) (show nanos / 1000 < 1000000 by omega)
            (show nanos / 1000 * 1000 = nanos by omega)
        simpa using hread
      · have hread : fraction ('.' :: ((padded 9 nanos).toList ++ ['Z'])) = _ :=
          fraction_point (by decide) (by decide) h (Nat.mul_one nanos)
        simpa using hread

/-- An instant within the years of the calendar. Only the last second of a minute can be followed
by a leap second. -/
structure Proper (t : Instant) : Prop where
  first : minYear ≤ (dateOfDays (t.seconds.fdiv 86400)).1
  last : (dateOfDays (t.seconds.fdiv 86400)).1 ≤ maxYear
  nanos : t.nanos < 2000000000
  leap : 1000000000 ≤ t.nanos → t.seconds % 60 = 59

/-- Put together from its parts, an instant is the same again. -/
theorem ofLocal_parts {t : Instant} (h : t.Proper) :
    let date := dateOfDays (t.seconds.fdiv 86400)
    let ofDay := (t.seconds - t.seconds.fdiv 86400 * 86400).toNat
    ofLocal date.1 date.2.1 date.2.2 (ofDay / 3600) (ofDay / 60 % 60)
      (ofDay % 60 + t.nanos / 1000000000) (t.nanos % 1000000000) 0 = .ok t := by
  intro date ofDay
  have hfirst : minYear ≤ date.1 := h.first
  have hlast : date.1 ≤ maxYear := h.last
  have hdate : IsDate date.1 date.2.1 date.2.2 := dateOfDays_isDate _
  have hdays : daysOfDate date.1 date.2.1 date.2.2 = t.seconds.fdiv 86400 :=
    daysOfDate_dateOfDays _
  have hyear : (dateOfDays (t.seconds.fdiv 86400)).1 = date.1 := rfl
  have hinside : ¬ (date.1 < minYear ∨ maxYear < date.1 ∨
      daysInMonth date.1 date.2.1 < date.2.2) := by
    have := hdate.last
    omega
  have hfdiv : t.seconds.fdiv 86400 = t.seconds / 86400 := Int.fdiv_eq_ediv_of_nonneg _ (by omega)
  have hofDay : (ofDay : Int) = t.seconds - t.seconds.fdiv 86400 * 86400 := by omega
  clear_value date ofDay
  have hnanos := h.nanos
  have hleap := h.leap
  have hsecond : (if ofDay % 60 + t.nanos / 1000000000 = 60 then 59
      else ofDay % 60 + t.nanos / 1000000000) = ofDay % 60 := by
    split <;> omega
  have hnano : (if ofDay % 60 + t.nanos / 1000000000 = 60 then
      1000000000 + t.nanos % 1000000000 else t.nanos % 1000000000) = t.nanos := by
    split <;> omega
  have hsum : t.seconds.fdiv 86400 * 86400 + ((ofDay / 3600 : Nat) : Int) * 3600 +
      ((ofDay / 60 % 60 : Nat) : Int) * 60 + ((ofDay % 60 : Nat) : Int) - 0 = t.seconds := by
    omega
  unfold ofLocal
  have hyears : ¬ (date.1 < minYear ∨ maxYear < date.1) := by omega
  simp only [if_neg hinside, hdays, hsecond, hnano, hsum, hyear, if_neg hyears]
  exact if_neg (by omega)

/-- The text of an instant, part by part. -/
theorem toList_toText (t : Instant) :
    let date := dateOfDays (t.seconds.fdiv 86400)
    let ofDay := (t.seconds - t.seconds.fdiv 86400 * 86400).toNat
    t.toText.toList = (yearText date.1).toList ++ ('-' :: ((padded 2 date.2.1).toList ++
      ('-' :: ((padded 2 date.2.2).toList ++ ('T' :: ((padded 2 (ofDay / 3600)).toList ++
        (':' :: ((padded 2 (ofDay / 60 % 60)).toList ++
          (':' :: ((padded 2 (ofDay % 60 + t.nanos / 1000000000)).toList ++
            ((fractionText (t.nanos % 1000000000)).toList ++ ['Z']))))))))))) := by
  simp [toText]

/-- An instant reads back from its text. -/
theorem parse_toText {t : Instant} (h : t.Proper) : parse t.toText = .ok t := by
  have hlocal := ofLocal_parts h
  have hdate : IsDate _ _ _ := dateOfDays_isDate (t.seconds.fdiv 86400)
  have hfdiv : t.seconds.fdiv 86400 = t.seconds / 86400 := Int.fdiv_eq_ediv_of_nonneg _ (by omega)
  obtain ⟨hfirst, hlast, hnanos, hleap⟩ := h
  have hofDay : ((t.seconds - t.seconds.fdiv 86400 * 86400).toNat : Int) =
      t.seconds - t.seconds.fdiv 86400 * 86400 := by omega
  unfold parse
  rw [toList_toText]
  generalize dateOfDays (t.seconds.fdiv 86400) = date at *
  generalize (t.seconds - t.seconds.fdiv 86400 * 86400).toNat = ofDay at *
  unfold minYear at hfirst
  unfold maxYear at hlast
  -- What each reader makes of its part, whatever comes after it.
  have hyear : ∀ cs, year ((yearText date.1).toList ++ '-' :: cs) = .ok (date.1, '-' :: cs) :=
    fun cs => year_yearText (by omega) (by omega) rfl
  have hmonth : ∀ cs, part 1 12 ((padded 2 date.2.1).toList ++ cs) = .ok (date.2.1, cs) :=
    fun cs => part_padded (by have := hdate.ofYear; omega) hdate.ofYear
  have hday : ∀ cs, part 1 31 ((padded 2 date.2.2).toList ++ cs) = .ok (date.2.2, cs) :=
    fun cs => part_padded (by have := hdate.day_le; omega) ⟨hdate.first, hdate.day_le⟩
  have hhour : ∀ cs, part 0 23 ((padded 2 (ofDay / 3600)).toList ++ cs) =
      .ok (ofDay / 3600, cs) := fun cs => part_padded (by omega) (by omega)
  have hminute : ∀ cs, part 0 59 ((padded 2 (ofDay / 60 % 60)).toList ++ cs) =
      .ok (ofDay / 60 % 60, cs) := fun cs => part_padded (by omega) (by omega)
  have hsecond : ∀ cs, part 0 60 ((padded 2 (ofDay % 60 + t.nanos / 1000000000)).toList ++ cs) =
      .ok (ofDay % 60 + t.nanos / 1000000000, cs) := fun cs => part_padded (by omega) (by omega)
  have hfraction := fraction_fractionText (show t.nanos % 1000000000 < 1000000000 by omega)
  have hdash : ∀ cs, literal '-' (Text.trimStart ('-' :: cs)) = .ok cs := fun _ => rfl
  have hcolon : ∀ cs, literal ':' (Text.trimStart (':' :: cs)) = .ok cs := fun _ => rfl
  have hzulu : offset (Text.trimStart ['Z']) = .ok (0, []) := rfl
  simp only [bind, Except.bind, pure, Except.pure, hyear, hdash, hmonth, hday, hhour, hcolon,
    hminute, hsecond, hfraction, hzulu]
  exact hlocal

/-- An instant is carried by its text. -/
theorem carries {t : Instant} (h : t.Proper) : codec.Carries t := by
  refine .of_normal (by simp [codec, Json.normalize]) ?_
  simp only [codec, parse_toText h]

end Conformance.Instant
