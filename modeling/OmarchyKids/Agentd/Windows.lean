import OmarchyKids.Agentd.Daemon
import OmarchyKids.Lib.Circle

/-!
# OmarchyKids.Agentd.Windows

Blocked windows as arcs of the week. The daemon looks a window up twice: under
its own weekday for the part before midnight, and under the weekday before
today for the part after it. Both look-ups together say whether the wall clock,
as a position on the circle of the week, lies in the arc the window stands for
(`inBlockedWindow_iff`).
-/

namespace OmarchyKids

open Daemon

/-! ### The circle of the week -/

/-- Nanoseconds from one midnight to the next, by the wall clock. -/
def dayLength : Int := 86400000000000

/-- `Weekday::num_days_from_monday`. -/
def Weekday.numDaysFromMonday : Weekday → Int
  | mon => 0
  | tue => 1
  | wed => 2
  | thu => 3
  | fri => 4
  | sat => 5
  | sun => 6

/-- Nanoseconds the wall clock has counted since some Monday. -/
def NaiveDateTime.sinceMonday (t : NaiveDateTime) : Int := (t.date + 3) * dayLength + t.time

/-- A window keyed to the weekday `d` covers the position `x` of the week: both
ends are times, they differ, and `x` lies in the arc from the start to the next
end. -/
def Window.Covers (parseTime : String → Option NaiveTime) (d : Weekday) (w : Window) (x : Int) :
    Prop :=
  ∃ a b, parseTime w.start = some a ∧ parseTime w.end = some b ∧ a ≠ b ∧
    Circle.InArc (7 * dayLength) (d.numDaysFromMonday * dayLength + a) ((b - a) % dayLength) x

/-- A time of day is less than a day, whether parsed or shown by the clock. -/
structure Platform.TimesOfDay (p : Platform) : Prop where
  parsed : ∀ text (t : NaiveTime), p.parseTime text = some t → (t : Int) < dayLength
  shown : ∀ t, ((p.zone.toLocal t).time : Int) < dayLength

theorem Weekday.numDaysFromMonday_bounds (d : Weekday) :
    0 ≤ d.numDaysFromMonday ∧ d.numDaysFromMonday < 7 := by
  cases d <;> decide

theorem Weekday.numDaysFromMonday_inj {d e : Weekday} :
    d.numDaysFromMonday = e.numDaysFromMonday ↔ d = e := by
  cases d <;> cases e <;> decide

theorem Weekday.pred_eq_iff {d e : Weekday} :
    d.pred = e ↔ d.numDaysFromMonday = (e.numDaysFromMonday + 1) % 7 := by
  cases d <;> cases e <;> decide

theorem NaiveDateTime.numDaysFromMonday_weekday (t : NaiveDateTime) :
    t.weekday.numDaysFromMonday = (t.date + 3) % 7 := by
  have hbounds : 0 ≤ (t.date + 3) % 7 ∧ (t.date + 3) % 7 < 7 := by omega
  unfold NaiveDateTime.weekday
  generalize (t.date + 3) % 7 = n at hbounds
  obtain rfl | rfl | rfl | rfl | rfl | rfl | rfl :
    n = 0 ∨ n = 1 ∨ n = 2 ∨ n = 3 ∨ n = 4 ∨ n = 5 ∨ n = 6 := by omega
  all_goals rfl

/-- The position of a wall-clock reading on the circle of the week. -/
theorem NaiveDateTime.sinceMonday_eq (t : NaiveDateTime) :
    ∃ weeks, t.sinceMonday =
      t.weekday.numDaysFromMonday * dayLength + t.time + 7 * dayLength * weeks := by
  refine ⟨(t.date + 3) / 7, ?_⟩
  have hdiv := Int.emod_add_mul_ediv (t.date + 3) 7
  rw [t.numDaysFromMonday_weekday, sinceMonday]
  unfold dayLength
  omega

/-! ### The two look-ups -/

namespace Budget

theorem coversFromStart_iff {parseTime : String → Option NaiveTime} {w : Window}
    {time : NaiveTime} :
    coversFromStart parseTime w time = true ↔
      ∃ a b, parseTime w.start = some a ∧ parseTime w.end = some b ∧
        a ≤ time ∧ (a ≤ b → time < b) := by
  unfold coversFromStart
  cases parseTime w.start with
  | none => simp
  | some a =>
      cases parseTime w.end with
      | none => simp
      | some b =>
          by_cases hab : a ≤ b
          · simp [hab]
          · simp [hab]

theorem coversUntilEndWrap_iff {parseTime : String → Option NaiveTime} {w : Window}
    {time : NaiveTime} :
    coversUntilEndWrap parseTime w time = true ↔
      ∃ a b, parseTime w.start = some a ∧ parseTime w.end = some b ∧ b < a ∧ time < b := by
  unfold coversUntilEndWrap
  cases parseTime w.start with
  | none => simp
  | some a =>
      cases parseTime w.end with
      | none => simp
      | some b => simp

end Budget

/-- A window covers a reading from its start on its own weekday, or until its
end on the next. -/
theorem Window.covers_iff {p : Platform} (hp : p.TimesOfDay) (d : Weekday) (w : Window)
    (nowLocal : DateTime) :
    w.Covers p.parseTime d (p.zone.toLocal nowLocal).sinceMonday ↔
      (d = (p.zone.toLocal nowLocal).weekday ∧
          Budget.coversFromStart p.parseTime w (p.zone.toLocal nowLocal).time = true) ∨
        (d = (p.zone.toLocal nowLocal).weekday.pred ∧
          Budget.coversUntilEndWrap p.parseTime w (p.zone.toLocal nowLocal).time = true) := by
  have ht := hp.shown nowLocal
  generalize p.zone.toLocal nowLocal = now at ht
  obtain ⟨weeks, hweeks⟩ := now.sinceMonday_eq
  have harc : ∀ a b : NaiveTime, (a : Int) < dayLength → (b : Int) < dayLength →
      (Circle.InArc (7 * dayLength) (d.numDaysFromMonday * dayLength + a) (((b : Int) - a) % dayLength)
          now.sinceMonday ↔
        (d = now.weekday ∧ a ≤ now.time ∧ (a ≤ b → now.time < b)) ∨
          (d = now.weekday.pred ∧ b < a ∧ now.time < b)) := by
    intro a b ha hb
    have hunits := @Circle.inArc_units_iff 7 dayLength a b now.time now.weekday.numDaysFromMonday
      d.numDaysFromMonday (by decide) now.weekday.numDaysFromMonday_bounds
      d.numDaysFromMonday_bounds ⟨Int.natCast_nonneg a, ha⟩ ⟨Int.natCast_nonneg b, hb⟩
      ⟨Int.natCast_nonneg now.time, ht⟩
    rw [hweeks, Circle.inArc_add_laps]
    refine hunits.trans (or_congr (and_congr ?_ ?_) (and_congr ?_ ?_))
    · exact Weekday.numDaysFromMonday_inj.trans eq_comm
    · exact and_congr Int.ofNat_le (imp_congr Int.ofNat_le Int.ofNat_lt)
    · exact Weekday.pred_eq_iff.symm.trans eq_comm
    · exact and_congr Int.ofNat_lt Int.ofNat_lt
  rw [Budget.coversFromStart_iff, Budget.coversUntilEndWrap_iff]
  constructor
  · intro h
    obtain ⟨a, b, ha, hb, -, hin⟩ := h
    rcases (harc a b (hp.parsed _ _ ha) (hp.parsed _ _ hb)).mp hin with ⟨hd, hin⟩ | ⟨hd, hin⟩
    · exact .inl ⟨hd, a, b, ha, hb, hin⟩
    · exact .inr ⟨hd, a, b, ha, hb, hin⟩
  · intro h
    rcases h with ⟨hd, a, b, ha, hb, hin⟩ | ⟨hd, a, b, ha, hb, hin⟩
    · have hne : a ≠ b := fun hab => absurd (hin.2 hab.le) (not_lt.mpr (hab ▸ hin.1))
      exact ⟨a, b, ha, hb, hne,
        (harc a b (hp.parsed _ _ ha) (hp.parsed _ _ hb)).mpr (.inl ⟨hd, hin⟩)⟩
    · exact ⟨a, b, ha, hb, hin.1.ne',
        (harc a b (hp.parsed _ _ ha) (hp.parsed _ _ hb)).mpr (.inr ⟨hd, hin⟩)⟩

/-! ### The schedule -/

/-- The daemon takes an instant to be blocked exactly if some window of some
weekday covers what the wall clock shows. -/
theorem inBlockedWindow_iff {p : Platform} (hp : p.TimesOfDay) (config : Config)
    (nowLocal : DateTime) :
    Budget.inBlockedWindow p config nowLocal = true ↔
      ∃ d, ∃ w ∈ config.windowsToday d,
        w.Covers p.parseTime d (p.zone.toLocal nowLocal).sinceMonday := by
  unfold Budget.inBlockedWindow
  simp only [Bool.or_eq_true, List.any_eq_true]
  constructor
  · intro h
    rcases h with ⟨w, hw, hcovers⟩ | ⟨w, hw, hcovers⟩
    · exact ⟨_, w, hw, (w.covers_iff hp _ nowLocal).mpr (.inl ⟨rfl, hcovers⟩)⟩
    · exact ⟨_, w, hw, (w.covers_iff hp _ nowLocal).mpr (.inr ⟨rfl, hcovers⟩)⟩
  · intro h
    obtain ⟨d, w, hw, hcovers⟩ := h
    rcases (w.covers_iff hp d nowLocal).mp hcovers with ⟨rfl, hpart⟩ | ⟨rfl, hpart⟩
    · exact .inl ⟨w, hw, hpart⟩
    · exact .inr ⟨w, hw, hpart⟩

/-! ### A school night -/

/-- The clock texts that occur below. -/
def clockTexts : List (String × NaiveTime) :=
  [("00:00", 0), ("07:00", 25200000000000), ("20:00", 72000000000000)]

/-- The sample installation with a clock that can be read. -/
def clockPlatform : Platform := { samplePlatform with parseTime := fun text => clockTexts.lookup text }

/-- Sundays from eight in the evening until seven the next morning. -/
def schoolNight : Config :=
  { Config.defaultForTier "mini" with timeWindows := [("sun", [⟨"20:00", "07:00"⟩])] }

theorem clockPlatform_timesOfDay : clockPlatform.TimesOfDay := by
  refine ⟨fun text t h => ?_, fun t => ?_⟩
  · obtain ⟨before, after, hsplit, -⟩ := List.lookup_eq_some_iff.mp h
    have hmem : (text, t) ∈ clockTexts := by simp [hsplit]
    have hall : ∀ entry ∈ clockTexts, (entry.2 : Int) < dayLength := by decide +kernel
    exact hall (text, t) hmem
  · change ((t % 86400000000000).toNat : Int) < 86400000000000
    omega

theorem inBlockedWindow_iff_schoolNight :
    Budget.inBlockedWindow clockPlatform schoolNight sampleEnv.nowLocal = true ↔
      ∃ d, ∃ w ∈ schoolNight.windowsToday d,
        w.Covers clockPlatform.parseTime d
          (clockPlatform.zone.toLocal sampleEnv.nowLocal).sinceMonday :=
  inBlockedWindow_iff clockPlatform_timesOfDay schoolNight sampleEnv.nowLocal

/-- Half past six on Monday, 2026-08-31, is still blocked; seven is not. -/
example : Budget.inBlockedWindow clockPlatform schoolNight 1788157800000000000 = true ∧
    Budget.inBlockedWindow clockPlatform schoolNight 1788159600000000000 = false := by
  decide +kernel

/-! ### The next block of the day -/

namespace Budget

/-- `in_blocked_window` for what the wall clock shows: a weekday and a time. -/
def blockedAt (parseTime : String → Option NaiveTime) (config : Config) (d : Weekday)
    (time : NaiveTime) : Bool :=
  (config.windowsToday d).any (fun w => coversFromStart parseTime w time) ||
    (config.windowsToday d.pred).any fun w => coversUntilEndWrap parseTime w time

/-- The daemon looks at nothing but the wall clock. -/
theorem inBlockedWindow_eq_blockedAt (p : Platform) (config : Config) (nowLocal : DateTime) :
    inBlockedWindow p config nowLocal =
      blockedAt p.parseTime config (p.zone.toLocal nowLocal).weekday
        (p.zone.toLocal nowLocal).time := rfl

theorem blockedAt_iff {parseTime : String → Option NaiveTime} {config : Config} {d : Weekday}
    {time : NaiveTime} :
    blockedAt parseTime config d time = true ↔
      (∃ w ∈ config.windowsToday d, coversFromStart parseTime w time = true) ∨
        ∃ w ∈ config.windowsToday d.pred, coversUntilEndWrap parseTime w time = true := by
  rw [blockedAt, Bool.or_eq_true, List.any_eq_true, List.any_eq_true]

/-- Start and end of every window are times, and they differ. -/
def ProperWindows (parseTime : String → Option NaiveTime) (config : Config) : Prop :=
  ∀ d, ∀ w ∈ config.windowsToday d,
    ∃ a b, parseTime w.start = some a ∧ parseTime w.end = some b ∧ a ≠ b

/-- The starts after `time` of the windows keyed to a weekday. -/
def startsAfter (parseTime : String → Option NaiveTime) (config : Config) (d : Weekday)
    (time : NaiveTime) : List NaiveTime :=
  ((config.windowsToday d).filterMap fun w => parseTime w.start).filter (time < ·)

variable {parseTime : String → Option NaiveTime} {config : Config} {d : Weekday} {time : NaiveTime}

theorem mem_startsAfter {start : NaiveTime} :
    start ∈ startsAfter parseTime config d time ↔
      (∃ w ∈ config.windowsToday d, parseTime w.start = some start) ∧ time < start := by
  rw [startsAfter, List.mem_filter, List.mem_filterMap, decide_eq_true_iff]

/-- A window covers its own start. -/
theorem blockedAt_start (h : ProperWindows parseTime config) {w : Window}
    (hw : w ∈ config.windowsToday d) {start : NaiveTime} (hstart : parseTime w.start = some start) :
    blockedAt parseTime config d start = true := by
  obtain ⟨a, b, ha, hb, hne⟩ := h d w hw
  obtain rfl : a = start := Option.some.inj (ha.symm.trans hstart)
  refine blockedAt_iff.mpr (.inl ⟨w, hw, coversFromStart_iff.mpr ⟨a, b, ha, hb, le_refl a, ?_⟩⟩)
  exact fun hab => lt_of_le_of_ne hab hne

/-- Between a free and a later blocked time of one day some window starts: a part
that covers the later time but not the earlier one does not come from the day
before, and has not yet ended. -/
theorem exists_start_of_blockedAt (hfree : blockedAt parseTime config d time = false)
    {later : NaiveTime} (hlt : time < later) (hblocked : blockedAt parseTime config d later = true) :
    ∃ start ∈ startsAfter parseTime config d time, start ≤ later := by
  have hfree : ¬ blockedAt parseTime config d time = true := Bool.eq_false_iff.mp hfree
  rcases blockedAt_iff.mp hblocked with ⟨w, hw, hcovers⟩ | ⟨w, hw, hcovers⟩
  · obtain ⟨a, b, ha, hb, hle, hend⟩ := coversFromStart_iff.mp hcovers
    refine ⟨a, mem_startsAfter.mpr ⟨⟨w, hw, ha⟩, ?_⟩, hle⟩
    by_contra hnot
    refine hfree (blockedAt_iff.mpr (.inl ⟨w, hw, coversFromStart_iff.mpr ⟨a, b, ha, hb, ?_, ?_⟩⟩))
    · exact not_lt.mp hnot
    · exact fun hab => hlt.trans (hend hab)
  · obtain ⟨a, b, ha, hb, hwrap, hend⟩ := coversUntilEndWrap_iff.mp hcovers
    have hcovered : coversUntilEndWrap parseTime w time = true :=
      coversUntilEndWrap_iff.mpr ⟨a, b, ha, hb, hwrap, hlt.trans hend⟩
    exact absurd (blockedAt_iff.mpr (.inr ⟨w, hw, hcovered⟩)) hfree

/-- The later times of the day at which something is blocked begin with the
earliest start to come. -/
theorem isLeast_blockedAt_iff (h : ProperWindows parseTime config)
    (htimes : ∀ text (t : NaiveTime), parseTime text = some t → (t : Int) < dayLength)
    (hfree : blockedAt parseTime config d time = false) (first : NaiveTime) :
    IsLeast {t : NaiveTime | time < t ∧ (t : Int) < dayLength ∧
        blockedAt parseTime config d t = true} first ↔
      IsLeast {t | t ∈ startsAfter parseTime config d time} first := by
  have hstarts : ∀ t ∈ startsAfter parseTime config d time,
      time < t ∧ (t : Int) < dayLength ∧ blockedAt parseTime config d t = true := by
    intro t ht
    obtain ⟨⟨w, hw, hstart⟩, hlt⟩ := mem_startsAfter.mp ht
    exact ⟨hlt, htimes _ _ hstart, blockedAt_start h hw hstart⟩
  constructor
  · intro hfirst
    obtain ⟨⟨hlt, -, hblocked⟩, hle⟩ := hfirst
    obtain ⟨start, hmem, hstart⟩ := exists_start_of_blockedAt hfree hlt hblocked
    obtain rfl : start = first := le_antisymm hstart (hle (hstarts start hmem))
    exact ⟨hmem, fun t ht => hle (hstarts t ht)⟩
  · intro hfirst
    refine ⟨hstarts first hfirst.1, fun t ht => ?_⟩
    obtain ⟨start, hmem, hstart⟩ := exists_start_of_blockedAt hfree ht.1 ht.2.2
    exact (hfirst.2 hmem).trans hstart

/-- The least of the images is the image of the least. -/
theorem min?_map_eq_some_iff {f : Nat → Nat} (hf : Monotone f) {l : List Nat} {m : Nat} :
    (l.map f).min? = some m ↔ ∃ x, IsLeast {y | y ∈ l} x ∧ m = f x := by
  rw [List.min?_eq_some_iff, List.forall_mem_map]
  constructor
  · rintro ⟨hmem, hle⟩
    obtain ⟨x, hx, rfl⟩ := List.mem_map.mp hmem
    obtain ⟨least, hleast⟩ : ∃ least, l.min? = some least :=
      Option.ne_none_iff_exists'.mp fun hnone => by
        rw [List.min?_eq_none_iff.mp hnone] at hx
        cases hx
    obtain ⟨hin, hmin⟩ := List.min?_eq_some_iff.mp hleast
    exact ⟨least, ⟨hin, fun y hy => hmin y hy⟩, le_antisymm (hle least hin) (hf (hmin x hx))⟩
  · rintro ⟨x, hx, rfl⟩
    exact ⟨List.mem_map_of_mem hx.1, fun y hy => hf (hx.2 hy)⟩

theorem minutesUntilNextWindowStart_eq (p : Platform) (config : Config) (nowLocal : DateTime) :
    minutesUntilNextWindowStart p config nowLocal =
      ((startsAfter p.parseTime config (p.zone.toLocal nowLocal).weekday
        (p.zone.toLocal nowLocal).time).map fun start =>
          (start - (p.zone.toLocal nowLocal).time) / 60000000000).min? := rfl

/-- Outside all windows, the next start announced is the first blocked time left
in the day: none if the day stays free, and otherwise the whole minutes until
then. -/
theorem minutesUntilNextWindowStart_iff {p : Platform} (hp : p.TimesOfDay) {config : Config}
    (hproper : ProperWindows p.parseTime config) {nowLocal : DateTime}
    (hfree : inBlockedWindow p config nowLocal = false) :
    let now := p.zone.toLocal nowLocal
    (minutesUntilNextWindowStart p config nowLocal = none ↔
      ∀ time : NaiveTime, now.time < time → (time : Int) < dayLength →
        blockedAt p.parseTime config now.weekday time = false) ∧
    ∀ minutes, minutesUntilNextWindowStart p config nowLocal = some minutes ↔
      ∃ first : NaiveTime,
        IsLeast {time : NaiveTime | now.time < time ∧ (time : Int) < dayLength ∧
          blockedAt p.parseTime config now.weekday time = true} first ∧
        minutes = (first - now.time) / 60000000000 := by
  intro now
  have hfree : blockedAt p.parseTime config now.weekday now.time = false := hfree
  rw [minutesUntilNextWindowStart_eq]
  constructor
  · rw [List.min?_eq_none_iff, List.map_eq_nil_iff, List.eq_nil_iff_forall_not_mem]
    constructor
    · intro hnone time hlt _
      by_contra hblocked
      obtain ⟨start, hmem, -⟩ :=
        exists_start_of_blockedAt hfree hlt (Bool.eq_true_of_not_eq_false hblocked)
      exact hnone start hmem
    · intro hstays start hmem
      obtain ⟨⟨w, hw, hstart⟩, hlt⟩ := mem_startsAfter.mp hmem
      have hblocked := blockedAt_start hproper hw hstart
      rw [hstays start hlt (hp.parsed _ _ hstart)] at hblocked
      cases hblocked
  · intro minutes
    have hmono : Monotone fun start : Nat => (start - now.time) / 60000000000 :=
      fun a b hab => Nat.div_le_div_right (Nat.sub_le_sub_right hab _)
    rw [min?_map_eq_some_iff hmono]
    refine exists_congr fun first => and_congr_left' ?_
    exact (isLeast_blockedAt_iff hproper hp.parsed hfree first).symm

/-- Sunday noon, eight hours before the school night begins. -/
theorem minutesUntilNextWindowStart_iff_schoolNight :
    let now := clockPlatform.zone.toLocal 1788091200000000000
    (minutesUntilNextWindowStart clockPlatform schoolNight 1788091200000000000 = none ↔
      ∀ time : NaiveTime, now.time < time → (time : Int) < dayLength →
        blockedAt clockPlatform.parseTime schoolNight now.weekday time = false) ∧
    ∀ minutes, minutesUntilNextWindowStart clockPlatform schoolNight 1788091200000000000 =
        some minutes ↔
      ∃ first : NaiveTime,
        IsLeast {time : NaiveTime | now.time < time ∧ (time : Int) < dayLength ∧
          blockedAt clockPlatform.parseTime schoolNight now.weekday time = true} first ∧
        minutes = (first - now.time) / 60000000000 := by
  refine minutesUntilNextWindowStart_iff clockPlatform_timesOfDay ?_ (by decide +kernel)
  intro d w hw
  cases d
  case sun =>
    obtain rfl : w = ⟨"20:00", "07:00"⟩ := List.mem_singleton.mp hw
    exact ⟨72000000000000, 25200000000000, by decide +kernel, by decide +kernel, by decide⟩
  all_goals exact absurd hw List.not_mem_nil

end Budget

end OmarchyKids
