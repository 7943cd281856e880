import Mathlib

/-!
# OmarchyKids.Lib.Calendar

The proleptic Gregorian calendar: the date of a day number, and the fact that
later days have later dates.

Years are counted from 1 March, so that the leap day comes last; 400 of them
make an era of 146097 days. Within an era a day has a year `yearOfEra` and a day
`dayOfYear` of it, and `yearOfEra_spec` says that the former is the year whose
days contain the day. Everything about the order follows from that:
`civil_lt_iff` compares dates as (month count, day) pairs.
-/

namespace Calendar

/-- The days before year `y` of an era. -/
def daysBefore (y : Nat) : Nat := 365 * y + y / 4 - y / 100

/-- The year, counted within its era, of the day `dayOfEra`. -/
def yearOfEra (dayOfEra : Nat) : Nat :=
  (dayOfEra - dayOfEra / 1460 + dayOfEra / 36524 - dayOfEra / 146096) / 365

/-- The day's number within its year, counted from 1 March. -/
def dayOfYear (dayOfEra : Nat) : Nat := dayOfEra - daysBefore (yearOfEra dayOfEra)

/-- The month counted from March, and the day of the month. -/
def monthDay (dayOfYear : Nat) : Nat × Nat :=
  let month := (5 * dayOfYear + 2) / 153
  (month, dayOfYear - (153 * month + 2) / 5 + 1)

/-- The year, month and day of a date given in days since 1970-01-01. -/
def civil (days : Int) : Int × Nat × Nat :=
  let z := days + 719468
  let dayOfEra := (z % 146097).toNat
  let (shifted, day) := monthDay (dayOfYear dayOfEra)
  let month := if shifted < 10 then shifted + 3 else shifted - 9
  let year := z / 146097 * 400 + yearOfEra dayOfEra
  (if month ≤ 2 then year + 1 else year, month, day)

/-! ### The year of a day -/

/-- Centuries of an era have 36524 days each, but for the last. -/
theorem yearOfEra_century {doe : Nat} (h : doe < 146096) :
    yearOfEra doe / 100 = doe / 36524 := by
  have hcentury : doe / 36524 = 0 ∨ doe / 36524 = 1 ∨ doe / 36524 = 2 ∨ doe / 36524 = 3 := by
    omega
  have hlast : doe / 146096 = 0 := by omega
  unfold yearOfEra
  rcases hcentury with h | h | h | h <;> rw [h, hlast] <;> omega

theorem daysBefore_yearOfEra_le {doe : Nat} (h : doe < 146096) :
    daysBefore (yearOfEra doe) ≤ doe := by
  have hcentury : doe / 36524 = 0 ∨ doe / 36524 = 1 ∨ doe / 36524 = 2 ∨ doe / 36524 = 3 := by
    omega
  have hlast : doe / 146096 = 0 := by omega
  have hy100 := yearOfEra_century h
  unfold daysBefore
  generalize hy : yearOfEra doe = y at hy100 ⊢
  unfold yearOfEra at hy
  rw [hlast] at hy
  rcases hcentury with h | h | h | h <;> rw [h] at hy100 hy <;> omega

theorem lt_daysBefore_succ_yearOfEra {doe : Nat} (h : doe < 146096) :
    doe < daysBefore (yearOfEra doe + 1) := by
  have hlast : doe / 146096 = 0 := by omega
  have hy100 := yearOfEra_century h
  unfold daysBefore
  generalize hy : yearOfEra doe = y at hy100 ⊢
  unfold yearOfEra at hy
  rw [hlast, ← hy100] at hy
  by_cases hend : (y + 1) % 100 = 0
  · -- the last year of its century has no leap day
    omega
  · by_cases hleap : doe / 1460 ≤ (y + 1) / 4
    · omega
    · have hlong : 1460 * ((y + 1) / 4 + 1) ≤ doe := by omega
      omega

/-- A day lies within its year; the last year of an era is one day longer. -/
theorem yearOfEra_spec {doe : Nat} (h : doe < 146097) :
    yearOfEra doe ≤ 399 ∧ daysBefore (yearOfEra doe) ≤ doe ∧
      (yearOfEra doe < 399 → doe < daysBefore (yearOfEra doe + 1)) ∧
      dayOfYear doe ≤ 365 := by
  rcases Nat.lt_or_eq_of_le (Nat.le_of_lt_succ h) with hlt | rfl
  · have hle := daysBefore_yearOfEra_le hlt
    have hsucc := lt_daysBefore_succ_yearOfEra hlt
    have h399 : yearOfEra doe ≤ 399 := by
      unfold yearOfEra
      omega
    refine ⟨h399, hle, fun _ => hsucc, ?_⟩
    unfold dayOfYear
    unfold daysBefore at hle hsucc ⊢
    omega
  · decide

theorem daysBefore_mono {x y : Nat} (h : x ≤ y) : daysBefore x ≤ daysBefore y := by
  induction h with
  | refl => exact Nat.le_refl _
  | step _ ih =>
      refine Nat.le_trans ih ?_
      unfold daysBefore
      omega

/-- Later days have a later year, or the same year and a later day of it. -/
theorem yearOfEra_lt {d e : Nat} (he : e < 146097) (h : d < e) :
    yearOfEra d < yearOfEra e ∨ yearOfEra d = yearOfEra e ∧ dayOfYear d < dayOfYear e := by
  obtain ⟨-, hd, -, -⟩ := yearOfEra_spec (Nat.lt_trans h he)
  obtain ⟨he399, he1, he2, -⟩ := yearOfEra_spec he
  rcases Nat.lt_trichotomy (yearOfEra d) (yearOfEra e) with hlt | heq | hgt
  · exact .inl hlt
  · refine .inr ⟨heq, ?_⟩
    unfold dayOfYear
    rw [heq] at hd ⊢
    omega
  · -- a year that ended before `d` cannot contain `e`
    obtain ⟨hd399, -, -, -⟩ := yearOfEra_spec (Nat.lt_trans h he)
    have hend := he2 (by omega)
    have hmono : daysBefore (yearOfEra e + 1) ≤ daysBefore (yearOfEra d) := daysBefore_mono hgt
    omega

/-- Months and days of a year follow one another. -/
theorem monthDay_lt {x y : Nat} (h : x < y) :
    (monthDay x).1 < (monthDay y).1 ∨
      (monthDay x).1 = (monthDay y).1 ∧ (monthDay x).2 < (monthDay y).2 := by
  simp only [monthDay]
  omega

theorem monthDay_bounds {x : Nat} (h : x ≤ 365) :
    (monthDay x).1 ≤ 11 ∧ 1 ≤ (monthDay x).2 ∧ (monthDay x).2 ≤ 31 := by
  simp only [monthDay]
  omega

/-! ### The date of a day -/

/-- Months since the beginning of year 0. -/
def monthCount (date : Int × Nat × Nat) : Int := 12 * date.1 + date.2.1

/-- Counted from March or from January, months are numbered alike. -/
theorem monthCount_civil (days : Int) :
    monthCount (civil days) = 12 * ((days + 719468) / 146097 * 400 +
      yearOfEra ((days + 719468) % 146097).toNat) +
      (monthDay (dayOfYear ((days + 719468) % 146097).toNat)).1 + 3 := by
  have hb := monthDay_bounds (@yearOfEra_spec (((days + 719468) % 146097).toNat) (by omega)).2.2.2
  generalize hdoe : ((days + 719468) % 146097).toNat = doe at hb
  simp only [monthCount, civil, hdoe]
  generalize monthDay (dayOfYear doe) = md at hb ⊢
  split <;> split <;> omega

theorem civil_bounds (days : Int) :
    1 ≤ (civil days).2.1 ∧ (civil days).2.1 ≤ 12 ∧ 1 ≤ (civil days).2.2 ∧
      (civil days).2.2 ≤ 31 := by
  have hb := monthDay_bounds (@yearOfEra_spec (((days + 719468) % 146097).toNat) (by omega)).2.2.2
  generalize hdoe : ((days + 719468) % 146097).toNat = doe at hb
  simp only [civil, hdoe]
  generalize monthDay (dayOfYear doe) = md at hb ⊢
  refine ⟨?_, ?_, hb.2.1, hb.2.2⟩ <;> split <;> omega

/-- Later days have later dates. -/
theorem civil_lt {d e : Int} (h : d < e) :
    monthCount (civil d) < monthCount (civil e) ∨
      monthCount (civil d) = monthCount (civil e) ∧ (civil d).2.2 < (civil e).2.2 := by
  have hday : ∀ days, (civil days).2.2 =
      (monthDay (dayOfYear ((days + 719468) % 146097).toNat)).2 := fun _ => rfl
  rw [monthCount_civil, monthCount_civil, hday, hday]
  have hd := @yearOfEra_spec (((d + 719468) % 146097).toNat) (by omega)
  have he := @yearOfEra_spec (((e + 719468) % 146097).toNat) (by omega)
  have hmd := monthDay_bounds hd.2.2.2
  have hme := monthDay_bounds he.2.2.2
  by_cases hera : (d + 719468) / 146097 = (e + 719468) / 146097
  · have hlt : ((d + 719468) % 146097).toNat < ((e + 719468) % 146097).toNat := by omega
    rcases yearOfEra_lt (by omega) hlt with hyear | ⟨hyear, hdoy⟩
    · omega
    · have hmonth := monthDay_lt hdoy
      omega
  · -- an earlier era: at least one of its 400 years separates the two days
    omega

/-- Dates are ordered as their days are. -/
theorem civil_lt_iff {d e : Int} :
    d < e ↔ monthCount (civil d) < monthCount (civil e) ∨
      monthCount (civil d) = monthCount (civil e) ∧ (civil d).2.2 < (civil e).2.2 := by
  refine ⟨civil_lt, fun h => ?_⟩
  rcases Int.lt_trichotomy d e with hlt | rfl | hgt
  · exact hlt
  · omega
  · have hrev := civil_lt hgt
    omega

end Calendar
