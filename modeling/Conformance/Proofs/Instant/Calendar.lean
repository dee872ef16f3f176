import Conformance.Instant

namespace Conformance.Instant

/-- The number of the year that a day of an era lies in. -/
def yearOfEra (day : Nat) : Nat := (day - day / 1460 + day / 36524 - day / 146096) / 365

/-- The days of an era before one of its years. -/
def daysBefore (year : Nat) : Nat := 365 * year + year / 4 - year / 100

/-- A year is found within its century. Only a year before a leap day has a day of number 365. -/
theorem yearOfCentury {day century leaps year : Nat} (hcentury : century ≤ 3)
    (hlow : 36524 * century ≤ day) (hhigh : day < 36524 * century + 36524)
    (hleaps : leaps = day / 1460) (hyear : year = (day + century - leaps) / 365) :
    year / 100 = century ∧ 365 * year + year / 4 ≤ day + century ∧
      day + century ≤ 365 * year + year / 4 + 365 ∧
      (day + century = 365 * year + year / 4 + 365 →
        (year + 1) % 4 = 0 ∧ (year + 1) % 100 ≠ 0) := by
  have hsame : year / 100 = century := by omega
  refine ⟨hsame, by omega, by omega, fun hlast => ?_⟩
  have hera : year < 400 := by omega
  have hmany : year / 4 + 1 ≤ leaps := by omega
  have hfour : (year + 1) % 4 = 0 := by
    have hrest : year % 4 = 0 ∨ year % 4 = 1 ∨ year % 4 = 2 ∨ year % 4 = 3 := by omega
    rcases hrest with hrest | hrest | hrest | hrest <;> omega
  exact ⟨hfour, by omega⟩

theorem yearOfEra_spec {day : Nat} (h : day < 146097) :
    let year := yearOfEra day
    year < 400 ∧ daysBefore year ≤ day ∧ day ≤ daysBefore year + 365 ∧
      (day = daysBefore year + 365 → (year + 1) % 4 = 0 ∧ ((year + 1) % 100 ≠ 0 ∨ year = 399)) := by
  intro year
  by_cases hlast : day = 146096
  · subst hlast
    decide
  · have hyear : year = (day + day / 36524 - day / 1460) / 365 := by
      have hnone : day / 146096 = 0 := by omega
      have hsum : day - day / 1460 + day / 36524 = day + day / 36524 - day / 1460 := by omega
      simp only [year, yearOfEra, hnone, hsum, Nat.sub_zero]
    obtain ⟨hcentury, hlow, hhigh, hleap⟩ :=
      yearOfCentury (show day / 36524 ≤ 3 by omega) (by omega) (by omega) rfl hyear
    unfold daysBefore
    refine ⟨by omega, by omega, by omega, fun heq => ?_⟩
    obtain ⟨hfour, hhundred⟩ := hleap (by omega)
    exact ⟨hfour, .inl hhundred⟩

/-- The number of the month, from March, that a day of a year lies in. -/
def monthOfYear (day : Nat) : Nat := (5 * day + 2) / 153

/-- The days of a year before one of its months, from March. -/
def daysBeforeMonth (month : Nat) : Nat := (153 * month + 2) / 5

theorem monthOfYear_spec {day : Nat} (h : day ≤ 365) :
    let month := monthOfYear day
    month ≤ 11 ∧ daysBeforeMonth month ≤ day ∧ day - daysBeforeMonth month ≤ 30 ∧
      (month = 1 ∨ month = 3 ∨ month = 6 ∨ month = 8 → day - daysBeforeMonth month ≤ 29) ∧
      (month = 11 → day - daysBeforeMonth month ≤ 28 ∧
        (day ≤ 364 → day - daysBeforeMonth month ≤ 27)) := by
  intro month
  unfold daysBeforeMonth
  have hmonth : month = (5 * day + 2) / 153 := rfl
  clear_value month
  refine ⟨by omega, by omega, by omega, by omega, by omega⟩

/-- A date of the calendar. -/
structure IsDate (year : Int) (month day : Nat) : Prop where
  ofYear : 1 ≤ month ∧ month ≤ 12
  first : 1 ≤ day
  last : day ≤ daysInMonth year month

theorem IsDate.day_le {year : Int} {month day : Nat} (h : IsDate year month day) : day ≤ 31 := by
  have hlast := h.last
  unfold daysInMonth at hlast
  split at hlast
  · split at hlast <;> omega
  · split at hlast <;> omega

/-- The number of a month in the calendar, from its number from March. -/
def monthOf (fromMarch : Nat) : Nat := if fromMarch < 10 then fromMarch + 3 else fromMarch - 9

theorem monthOf_spec {fromMarch : Nat} (h : fromMarch ≤ 11) :
    let month := monthOf fromMarch
    1 ≤ month ∧ month ≤ 12 ∧ fromMarch = (month + 9) % 12 := by
  intro month
  unfold month monthOf
  split <;> omega

/-- The date of a day of an era. -/
def dateInEra (era : Int) (day : Nat) : Int × Nat × Nat :=
  let year := yearOfEra day
  let dayOfYear := day - daysBefore year
  let fromMarch := monthOfYear dayOfYear
  let month := monthOf fromMarch
  let begun := (year : Int) + era * 400
  (if month ≤ 2 then begun + 1 else begun, month, dayOfYear - daysBeforeMonth fromMarch + 1)

theorem isLeap_of_last {era : Int} {year : Nat} (hfour : (year + 1) % 4 = 0)
    (hhundred : (year + 1) % 100 ≠ 0 ∨ year = 399) : isLeap (year + era * 400 + 1) = true := by
  simp only [isLeap, Bool.and_eq_true, Bool.or_eq_true, beq_iff_eq, bne_iff_ne]
  omega

theorem dateInEra_isDate (era : Int) {day : Nat} (h : day < 146097) :
    let date := dateInEra era day
    IsDate date.1 date.2.1 date.2.2 := by
  obtain ⟨_, hlow, hhigh, hleap⟩ := yearOfEra_spec h
  have hday : day - daysBefore (yearOfEra day) ≤ 365 := by omega
  obtain ⟨hmarch, _, hthirty, hshort, hlast⟩ := monthOfYear_spec hday
  obtain ⟨hmonth, htwelve, hfrom⟩ := monthOf_spec hmarch
  have hyear : day - daysBefore (yearOfEra day) = 365 →
      isLeap (yearOfEra day + era * 400 + 1) = true := fun heq => by
    obtain ⟨hfour, hhundred⟩ := hleap (by omega)
    exact isLeap_of_last hfour hhundred
  unfold dateInEra
  simp only
  generalize day - daysBefore (yearOfEra day) = dayOfYear at *
  generalize hmonths : monthOf (monthOfYear dayOfYear) = month at *
  generalize monthOfYear dayOfYear = fromMarch at *
  generalize dayOfYear - daysBeforeMonth fromMarch = dayOfMonth at *
  refine ⟨⟨hmonth, htwelve⟩, by omega, ?_⟩
  unfold daysInMonth
  split
  · rename_i hfeb
    obtain ⟨hleapDay, hcommon⟩ := hlast (by omega)
    rw [if_pos (show month ≤ 2 by omega)]
    split
    · omega
    · rename_i hnot
      have hless : dayOfYear ≠ 365 := fun heq => hnot (hyear heq)
      have := hcommon (by omega)
      omega
  · split
    · have := hshort (by omega)
      omega
    · omega

theorem daysOfDate_dateInEra (era : Int) {day : Nat} (h : day < 146097) :
    let date := dateInEra era day
    daysOfDate date.1 date.2.1 date.2.2 = era * 146097 + day - 719468 := by
  obtain ⟨hera, hlow, hhigh, _⟩ := yearOfEra_spec h
  have hday : day - daysBefore (yearOfEra day) ≤ 365 := by omega
  obtain ⟨hmarch, hfirst, _⟩ := monthOfYear_spec hday
  obtain ⟨_, _, hfrom⟩ := monthOf_spec hmarch
  unfold dateInEra daysOfDate
  simp only
  generalize monthOf (monthOfYear (day - daysBefore (yearOfEra day))) = month at *
  generalize monthOfYear (day - daysBefore (yearOfEra day)) = fromMarch at *
  generalize yearOfEra day = year at *
  have hbegun : (if month ≤ 2 then
      (if month ≤ 2 then (year : Int) + era * 400 + 1 else year + era * 400) - 1
      else if month ≤ 2 then (year : Int) + era * 400 + 1 else year + era * 400) =
      year + era * 400 := by
    split <;> omega
  have hmonth : ((month : Int) + 9) % 12 = fromMarch := by omega
  have hdiv : ((year : Int) + era * 400).fdiv 400 = era := by
    rw [Int.fdiv_eq_ediv_of_nonneg _ (by omega)]
    omega
  have hbefore : (daysBefore year : Int) = year * 365 + year / 4 - year / 100 := by
    unfold daysBefore
    omega
  have hbeforeMonth : (daysBeforeMonth fromMarch : Int) = (153 * fromMarch + 2) / 5 := rfl
  rw [hbegun, hdiv, hmonth, Int.add_sub_cancel, ← hbeforeMonth]
  clear hbegun hdiv hmonth hbeforeMonth
  omega

/-- The date of a number of days is a date of the calendar. -/
theorem dateOfDays_isDate (days : Int) :
    let date := dateOfDays days
    IsDate date.1 date.2.1 date.2.2 := by
  refine dateInEra_isDate ((days + 719468).fdiv 146097) ?_
  rw [Int.fdiv_eq_ediv_of_nonneg _ (by omega)]
  omega

/-- Counting the days to the date of a number of days gives the number back. -/
theorem daysOfDate_dateOfDays (days : Int) :
    let date := dateOfDays days
    daysOfDate date.1 date.2.1 date.2.2 = days := by
  have hfdiv : (days + 719468).fdiv 146097 = (days + 719468) / 146097 :=
    Int.fdiv_eq_ediv_of_nonneg _ (by omega)
  have hday : (days + 719468 - (days + 719468).fdiv 146097 * 146097).toNat < 146097 := by omega
  refine (daysOfDate_dateInEra ((days + 719468).fdiv 146097) hday).trans ?_
  omega

end Conformance.Instant
