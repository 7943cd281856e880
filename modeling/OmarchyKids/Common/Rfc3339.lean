import OmarchyKids.Common.Time
import OmarchyKids.Lib.Calendar
import OmarchyKids.Lib.Digits

/-!
# OmarchyKids.Common.Rfc3339

The RFC 3339 text under which instants stand in the usage log, and its order.

SQLite compares timestamps as texts. For instants in years 0 to 9999 that is the
order of the instants (`toRfc3339_lt_iff`), although a text has no, 3, 6 or 9
digits after the seconds: the `+` of the offset comes before the decimal point
and before every digit. Outside those years the year has more digits or a sign,
and the texts are no longer ordered like the instants.
-/

namespace OmarchyKids

open Digits Calendar

/-! ### Text -/

/-- A year on four digits; outside 0–9999 with its sign and as many digits as it
needs. -/
def yearText (year : Int) : List Char :=
  if 0 ≤ year ∧ year ≤ 9999 then pad 4 year.toNat
  else (if year < 0 then '-' else '+') ::
    (if year.natAbs ≤ 9999 then pad 4 year.natAbs else Nat.toDigits 10 year.natAbs)

/-- The fraction of a second: nothing, or 3, 6 or 9 digits, whichever is the
shortest exact one. -/
def fractionText (nanos : Nat) : List Char :=
  if nanos = 0 then []
  else if nanos % 1000000 = 0 then '.' :: pad 3 (nanos / 1000000)
  else if nanos % 1000 = 0 then '.' :: pad 6 (nanos / 1000)
  else '.' :: pad 9 nanos

/-- `DateTime::<Utc>::to_rfc3339`. -/
def toRfc3339 (t : DateTime) : String :=
  let seconds := t / 1000000000
  let (year, month, day) := civil (seconds / 86400)
  let ofDay := (seconds % 86400).toNat
  String.ofList (yearText year ++ '-' :: pad 2 month ++ '-' :: pad 2 day ++
    'T' :: pad 2 (ofDay / 3600) ++ ':' :: pad 2 (ofDay / 60 % 60) ++ ':' :: pad 2 (ofDay % 60) ++
    fractionText (t % 1000000000).toNat ++ "+00:00".toList)

example : toRfc3339 1788220805123000000 = "2026-09-01T00:00:05.123+00:00" := by decide

/-- The UTC calendar year of an instant. -/
def yearOf (t : DateTime) : Int := (civil (t / 1000000000 / 86400)).1

/-- The instants whose text begins with exactly four digits. -/
def FourDigitYear (t : DateTime) : Prop := 0 ≤ yearOf t ∧ yearOf t ≤ 9999

instance (t : DateTime) : Decidable (FourDigitYear t) := inferInstanceAs (Decidable (_ ∧ _))

/-! ### Order -/

/-- A fraction written group by group: each group of three digits may be the
last one. -/
theorem fractionText_append (n : Nat) (stop : List Char) :
    fractionText n ++ stop =
      if n = 0 then stop
      else '.' :: (pad 3 (n / 1000000) ++
        if n % 1000000 = 0 then stop
        else pad 3 (n / 1000 % 1000) ++
          if n % 1000 = 0 then stop else pad 3 (n % 1000) ++ stop) := by
  have h6 : pad 6 (n / 1000) = pad 3 (n / 1000000) ++ pad 3 (n / 1000 % 1000) := by
    rw [pad_add 3 3, Nat.div_div_eq_div_mul]
    simp only [Nat.reducePow, Nat.reduceMul]
  have h9 : pad 9 n = pad 3 (n / 1000000) ++ (pad 3 (n / 1000 % 1000) ++ pad 3 (n % 1000)) := by
    have hmid : n % 1000000 / 1000 = n / 1000 % 1000 := by omega
    have hlow : n % 1000000 % 1000 = n % 1000 := by omega
    rw [pad_add 3 6, pad_add 3 3]
    simp only [Nat.reducePow, hmid, hlow]
  unfold fractionText
  by_cases h0 : n = 0
  · simp [h0]
  · by_cases hmilli : n % 1000000 = 0
    · simp [h0, hmilli]
    · by_cases hmicro : n % 1000 = 0
      · simp [h0, hmilli, hmicro, h6]
      · simp [h0, hmilli, hmicro, h9]

/-- Fractions are ordered as their values are, whatever their lengths. -/
theorem fractionText_lt_iff {m n : Nat} (hm : m < 1000000000) (hn : n < 1000000000)
    (offset : List Char) :
    fractionText m ++ '+' :: offset < fractionText n ++ '+' :: offset ↔ m < n := by
  have hdigits : ∀ k x, '+' :: offset < pad 3 k ++ x :=
    fun k x => lt_pad_append (by decide) 2 k offset x
  have hpoint : ∀ x, '+' :: offset < '.' :: x := fun x => by
    rw [List.cons_lt_cons_iff]
    exact .inl (by decide)
  have hirrefl : ¬ ('+' :: offset < '+' :: offset) := List.lt_irrefl _
  rw [fractionText_append, fractionText_append, optional_lt_iff (hpoint _) (hpoint _),
    cons_lt_cons_self_iff, pad_append_lt_iff (by omega) (by omega),
    optional_lt_iff (hdigits _ _) (hdigits _ _), pad_append_lt_iff (by omega) (by omega),
    optional_lt_iff (hdigits _ _) (hdigits _ _), pad_append_lt_iff (by omega) (by omega)]
  simp only [hirrefl, and_false, or_false]
  omega

/-- Hour, minute, second and what follows are ordered as the second of the day
and what follows. -/
theorem clock_lt_iff {s t m n : Nat} (hs : s < 86400) (ht : t < 86400) :
    (s / 3600 < t / 3600 ∨ s / 3600 = t / 3600 ∧ (s / 60 % 60 < t / 60 % 60 ∨
      s / 60 % 60 = t / 60 % 60 ∧ (s % 60 < t % 60 ∨ s % 60 = t % 60 ∧ m < n))) ↔
    s < t ∨ s = t ∧ m < n := by
  omega

/-- Year, month, day and what follows are ordered as the day number and what
follows. -/
theorem date_lt_iff {d e : Int} {later : Prop} (hd : 0 ≤ (civil d).1) (he : 0 ≤ (civil e).1) :
    ((civil d).1.toNat < (civil e).1.toNat ∨ (civil d).1.toNat = (civil e).1.toNat ∧
      ((civil d).2.1 < (civil e).2.1 ∨ (civil d).2.1 = (civil e).2.1 ∧
        ((civil d).2.2 < (civil e).2.2 ∨ (civil d).2.2 = (civil e).2.2 ∧ later))) ↔
    d < e ∨ d = e ∧ later := by
  obtain ⟨hd1, hd12, -, -⟩ := civil_bounds d
  obtain ⟨he1, he12, -, -⟩ := civil_bounds e
  have hlt := @civil_lt_iff d e
  have hgt := @civil_lt_iff e d
  unfold monthCount at hlt hgt
  by_cases hlater : later
  · simp only [hlater, and_true]
    omega
  · simp only [hlater, and_false, or_false]
    omega

/-- In years 0 to 9999 the texts are ordered as the instants are. -/
theorem toRfc3339_lt_iff {a b : DateTime} (ha : FourDigitYear a) (hb : FourDigitYear b) :
    toRfc3339 a < toRfc3339 b ↔ a < b := by
  have hmonth (d : Int) : (civil d).2.1 < 10 ^ 2 := by
    obtain ⟨-, h12, -, -⟩ := civil_bounds d
    omega
  have hday (d : Int) : (civil d).2.2 < 10 ^ 2 := by
    obtain ⟨-, -, -, h31⟩ := civil_bounds d
    omega
  unfold FourDigitYear yearOf at ha hb
  unfold toRfc3339 yearText
  simp only [if_pos ha, if_pos hb, String.lt_iff, String.toList_ofList, List.append_assoc,
    List.cons_append, show "+00:00".toList = '+' :: "00:00".toList from rfl]
  -- field by field: each decides unless the two texts agree on it
  rw [pad_append_lt_iff (by omega) (by omega), cons_lt_cons_self_iff,
    pad_append_lt_iff (hmonth _) (hmonth _), cons_lt_cons_self_iff,
    pad_append_lt_iff (hday _) (hday _), cons_lt_cons_self_iff,
    pad_append_lt_iff (by omega) (by omega), cons_lt_cons_self_iff,
    pad_append_lt_iff (by omega) (by omega), cons_lt_cons_self_iff,
    pad_append_lt_iff (by omega) (by omega), fractionText_lt_iff (by omega) (by omega),
    clock_lt_iff (by omega) (by omega), date_lt_iff ha.1 hb.1]
  -- day, second of the day and nanosecond make up the instant
  change _ ↔ @LT.lt Int _ a b
  omega

theorem toRfc3339_le_iff {a b : DateTime} (ha : FourDigitYear a) (hb : FourDigitYear b) :
    toRfc3339 a ≤ toRfc3339 b ↔ a ≤ b := by
  rw [← String.not_lt, toRfc3339_lt_iff hb ha, Int.not_lt]

end OmarchyKids
