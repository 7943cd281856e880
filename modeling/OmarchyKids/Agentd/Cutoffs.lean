import Mathlib
import OmarchyKids.Agentd.Restarts

/-!
# OmarchyKids.Agentd.Cutoffs

The instant at which a budget cuts an app off.

`check_allowed` holds whole minutes against a limit and its grace minute. Minutes
are rounded down, and the comparison is strict, so the first second refused is
the one that completes the minute *after* the grace minute (`refuses_iff`): the
grace lasts up to two minutes, not one.

The day whose seconds are counted begins at `local_midnight_utc`. On a day whose
midnight the wall clock shows never or twice there is no such instant, and the
day begins anew at every call (`localMidnightUtc_of_not_once`).
-/

namespace OmarchyKids

open Daemon Handlers

/-! ### The two budgets -/

/-- The budgets an app is held against. -/
inductive BudgetKind
  | daily
  | perApp
  deriving DecidableEq, Repr

namespace BudgetKind

/-- Whose sessions count: all apps', or the app's own. -/
def scope (app : String) : BudgetKind → Option String
  | daily => none
  | perApp => some app

/-- Today's limit, if the parent has set one. -/
def limit (p : Platform) (env : Env) (s : State) (app : String) : BudgetKind → Option UInt32
  | daily => s.config.dailyTotalMinutesToday (p.zone.toLocal env.nowLocal).weekday
  | perApp => s.config.perAppMinutesToday app (p.zone.toLocal env.nowLocal).weekday

/-- The text `check_allowed` refuses with on account of the budget. -/
def reason : BudgetKind → String
  | daily => "daily time budget exhausted"
  | perApp => "per-app time budget exhausted"

/-- The comparison of `check_allowed`. -/
def exceeded (p : Platform) (env : Env) (s : State) (app : String) (k : BudgetKind) : Bool :=
  (k.limit p env s app).any fun limit =>
    limit + Budget.graceMinutes < enforcedMinutes p env s (k.scope app)

/-- No check that comes before the budget's own refuses. -/
@[mk_iff reached_iff]
structure Reached (p : Platform) (env : Env) (s : State) (app : String) (k : BudgetKind) : Prop where
  allowed : s.config.isAppAllowed app = true
  noWindow : Budget.inBlockedWindow p s.config env.nowLocal = false
  dailyLeft : k = perApp → exceeded p env s app daily = false

/-- `check_allowed` refuses on account of a budget when it gets to it and finds
its limit exceeded. -/
theorem refuses_iff (p : Platform) (env : Env) (s : State) (app : String) (k : BudgetKind) :
    (checkAllowed p env s app).reason = some k.reason ↔
      k.Reached p env s app ∧ k.exceeded p env s app = true := by
  have hdaily : ((s.config.dailyTotalMinutesToday (p.zone.toLocal env.nowLocal).weekday).any
      fun limit => limit + Budget.graceMinutes < enforcedMinutes p env s none) =
        daily.exceeded p env s app := rfl
  have hperApp : ((s.config.perAppMinutesToday app (p.zone.toLocal env.nowLocal).weekday).any
      fun limit => limit + Budget.graceMinutes < enforcedMinutes p env s (some app)) =
        perApp.exceeded p env s app := rfl
  rw [checkAllowed_eq, hdaily, hperApp]
  cases hallowed : s.config.isAppAllowed app with
  | false => cases k <;> simp [reached_iff, hallowed, reason]
  | true =>
      cases hwindow : Budget.inBlockedWindow p s.config env.nowLocal with
      | true => cases k <;> simp [reached_iff, hallowed, hwindow, reason]
      | false =>
          cases hover : daily.exceeded p env s app with
          | true => cases k <;> simp [reached_iff, hallowed, hwindow, hover, reason]
          | false =>
              cases happ : perApp.exceeded p env s app <;> cases k <;>
                simp [reached_iff, hallowed, hwindow, hover, happ, reason]

end BudgetKind

/-! ### Minutes and seconds -/

/-- Whether the seconds counted today can be read from the log. -/
def readable (p : Platform) (env : Env) (app : Option String) : Bool :=
  (env.sql (.sumSeconds app (Budget.localMidnightUtc p.zone env.nowLocal))).isNone

/-- Seconds that cannot be read count as none. -/
theorem enforcedMinutes_eq (p : Platform) (env : Env) (s : State) (app : Option String) :
    enforcedMinutes p env s app =
      if readable p env app then Budget.minutesOf (usedToday p env s app) else 0 := by
  rw [enforcedMinutes, usedMinutes_eq_exec, readable, Sql.exec, usedToday]
  cases env.sql (.sumSeconds app (Budget.localMidnightUtc p.zone env.nowLocal)) <;> rfl

theorem lt_minutesOf_iff (limit : UInt32) (seconds : Int) :
    limit + Budget.graceMinutes < Budget.minutesOf seconds ↔
      ((limit.toNat : Int) + 1) % 2 ^ 32 < seconds.tdiv 60 % 2 ^ 32 := by
  rw [UInt32.lt_iff_toNat_lt, UInt32.toNat_add, Budget.minutesOf, UInt32.ofInt, UInt32.toNat_ofNat']
  have hgrace : Budget.graceMinutes.toNat = 1 := rfl
  rw [hgrace]
  omega

/-- In the range of a `u32`: the minute after the grace minute has to be complete. -/
theorem lt_minutesOf_iff_of_range {limit : UInt32} {seconds : Int} (hlimit : limit.toNat + 1 < 2 ^ 32)
    (hnonneg : 0 ≤ seconds) (hrange : seconds < 60 * 2 ^ 32) :
    limit + Budget.graceMinutes < Budget.minutesOf seconds ↔
      60 * ((limit.toNat : Int) + 2) ≤ seconds := by
  rw [lt_minutesOf_iff, Int.tdiv_eq_ediv_of_nonneg hnonneg]
  omega

/-! ### When the cutoff comes -/

/-- The limits and counted seconds at which a budget refuses after `limit`
minutes and one grace minute, and no later. In the range of a `u32` these are all
but the seconds of the minute after; beyond it the remainders have to compare as
the numbers do. -/
def CutoffOnTime (readable : Bool) (limit : Nat) (seconds : Int) : Prop :=
  if readable = false then seconds ≤ 60 * ((limit : Int) + 1)
  else if limit + 1 < 2 ^ 32 ∧ 0 ≤ seconds ∧ seconds < 60 * 2 ^ 32 then
    seconds ≤ 60 * ((limit : Int) + 1) ∨ 60 * ((limit : Int) + 2) ≤ seconds
  else
    ((limit : Int) + 1) % 2 ^ 32 < seconds.tdiv 60 % 2 ^ 32 ↔ 60 * ((limit : Int) + 1) < seconds

theorem exceeded_iff_of_limit {p : Platform} {env : Env} {s : State} {app : String} {k : BudgetKind}
    {limit : UInt32} (hlimit : k.limit p env s app = some limit) :
    (k.exceeded p env s app = true ↔
        60 * ((limit.toNat : Int) + 1) < usedToday p env s (k.scope app)) ↔
      CutoffOnTime (readable p env (k.scope app)) limit.toNat (usedToday p env s (k.scope app)) := by
  rw [BudgetKind.exceeded, hlimit, Option.any_some, decide_eq_true_iff, enforcedMinutes_eq,
    CutoffOnTime]
  cases readable p env (k.scope app) with
  | false =>
      simp
  | true =>
      simp only [if_true, Bool.true_eq_false, if_false]
      split
      · rename_i hrange
        obtain ⟨hlimit, hnonneg, hseconds⟩ := hrange
        rw [lt_minutesOf_iff_of_range hlimit hnonneg hseconds]
        omega
      · rw [lt_minutesOf_iff]

/-- Where a limit of `n` minutes applies, `check_allowed` refuses on its account
exactly when more than `n` minutes and the grace minute have been counted — except
for counts in the minute after the grace minute, where it does not refuse yet. -/
theorem budget_refuses_past_grace_iff (p : Platform) (env : Env) (s : State) (app : String)
    (k : BudgetKind) {limit : UInt32} (hlimit : k.limit p env s app = some limit) :
    ((checkAllowed p env s app).reason = some k.reason ↔
        k.Reached p env s app ∧
          60 * ((limit.toNat : Int) + 1) < usedToday p env s (k.scope app)) ↔
      (k.Reached p env s app →
        CutoffOnTime (readable p env (k.scope app)) limit.toNat
          (usedToday p env s (k.scope app))) := by
  rw [k.refuses_iff, ← exceeded_iff_of_limit hlimit, ← and_congr_right_iff]

/-- Puzzles since just after midnight, on a Tuesday of thirty minutes. -/
def halfHourTuesday : State :=
  { playing with config := { unlockedConfig with
      timeBudget := { dailyTotalMinutes := [("tue", 30)] } } }

/-- What is met `n` seconds after the puzzles were started. -/
def secondsLater (n : Int) : Env where
  nowUtc := sampleEnv.nowUtc + n * 1000000000
  nowLocal := sampleEnv.nowLocal + n * 1000000000

theorem budget_refuses_past_grace_tuesday :
    ((checkAllowed tablePlatform (secondsLater 1860) halfHourTuesday "org.kde.gcompris").reason =
        some BudgetKind.daily.reason ↔
      BudgetKind.daily.Reached tablePlatform (secondsLater 1860) halfHourTuesday "org.kde.gcompris" ∧
        60 * (((30 : UInt32).toNat : Int) + 1) <
          usedToday tablePlatform (secondsLater 1860) halfHourTuesday none) ↔
    (BudgetKind.daily.Reached tablePlatform (secondsLater 1860) halfHourTuesday "org.kde.gcompris" →
      CutoffOnTime (readable tablePlatform (secondsLater 1860) none) (30 : UInt32).toNat
        (usedToday tablePlatform (secondsLater 1860) halfHourTuesday none)) :=
  budget_refuses_past_grace_iff tablePlatform (secondsLater 1860) halfHourTuesday "org.kde.gcompris"
    .daily (by decide)

/-- After 31 minutes and 30 seconds the grace minute is over, and the app may go
on. -/
theorem grace_lasts_into_a_second_minute :
    ¬ ∀ (p : Platform) (env : Env) (s : State) (app : String) (k : BudgetKind) (limit : UInt32),
      k.limit p env s app = some limit → readable p env (k.scope app) = true →
      ((checkAllowed p env s app).reason = some k.reason ↔
        k.Reached p env s app ∧
          60 * ((limit.toNat : Int) + 1) < usedToday p env s (k.scope app)) := by
  intro h
  have hcase := h tablePlatform (secondsLater 1890) halfHourTuesday "org.kde.gcompris" .daily 30
    (by decide) (by decide)
  have hreached : BudgetKind.daily.Reached tablePlatform (secondsLater 1890) halfHourTuesday
      "org.kde.gcompris" := ⟨by decide, by decide, by simp⟩
  have hpast : 60 * (((30 : UInt32).toNat : Int) + 1) <
      usedToday tablePlatform (secondsLater 1890) halfHourTuesday none := by decide +kernel
  have hallowed : (checkAllowed tablePlatform (secondsLater 1890) halfHourTuesday
      "org.kde.gcompris").reason = none := by decide +kernel
  rw [hallowed] at hcase
  cases hcase.mpr ⟨hreached, hpast⟩

/-! ### Where a day begins -/

/-- The wall clock shows `l` at `t` and at no other instant. -/
def Zone.ShowsOnce (zone : Zone) (l : NaiveDateTime) (t : DateTime) : Prop :=
  zone.toLocal t = l ∧ ∀ t', zone.toLocal t' = l → t' = t

/-- The midnight a local date begins with. -/
def midnightOf (date : Int) : NaiveDateTime := ⟨date, 0⟩

/-- What `chrono` says of `single`, of the midnights: it is the instant of a local
time that exists once. -/
def Zone.Mapped (zone : Zone) : Prop :=
  ∀ date t, (zone.fromLocal (midnightOf date)).single? = some t ↔
    zone.ShowsOnce (midnightOf date) t

namespace Budget

variable {zone : Zone} {a b t : DateTime}

theorem localMidnightUtc_of_once (hzone : zone.Mapped)
    (h : zone.ShowsOnce (midnightOf (zone.toLocal a).date) t) : localMidnightUtc zone a = t := by
  rw [localMidnightUtc, show NaiveDateTime.mk (zone.toLocal a).date 0 = midnightOf _ from rfl,
    (hzone _ t).mpr h, Option.getD_some]

theorem localMidnightUtc_of_not_once (hzone : zone.Mapped)
    (h : ¬ ∃ t, zone.ShowsOnce (midnightOf (zone.toLocal a).date) t) :
    localMidnightUtc zone a = a := by
  have hnone : (zone.fromLocal (midnightOf (zone.toLocal a).date)).single? = none := by
    rw [Option.eq_none_iff_forall_ne_some]
    exact fun t ht => h ⟨t, (hzone _ t).mp ht⟩
  rw [localMidnightUtc, show NaiveDateTime.mk (zone.toLocal a).date 0 = midnightOf _ from rfl, hnone,
    Option.getD_none]

/-- Two instants of one local date count from one instant, not later than either,
exactly when that date's midnight exists once and lies before both — or they are
the same instant. -/
theorem day_begins_once_iff (hzone : zone.Mapped)
    (hday : (zone.toLocal a).date = (zone.toLocal b).date) :
    (localMidnightUtc zone a = localMidnightUtc zone b ∧ localMidnightUtc zone a ≤ a ∧
        localMidnightUtc zone b ≤ b) ↔
      (∃ t, zone.ShowsOnce (midnightOf (zone.toLocal a).date) t ∧ t ≤ a ∧ t ≤ b) ∨
        (¬ ∃ t, zone.ShowsOnce (midnightOf (zone.toLocal a).date) t) ∧ a = b := by
  by_cases honce : ∃ t, zone.ShowsOnce (midnightOf (zone.toLocal a).date) t
  · obtain ⟨t, ht⟩ := honce
    have hb : localMidnightUtc zone b = t := localMidnightUtc_of_once hzone (hday ▸ ht)
    rw [localMidnightUtc_of_once hzone ht, hb]
    constructor
    · rintro ⟨-, hta, htb⟩
      exact .inl ⟨t, ht, hta, htb⟩
    · rintro (⟨t', ht', hta, htb⟩ | ⟨hnever, -⟩)
      · obtain rfl := ht.2 t' ht'.1
        exact ⟨rfl, hta, htb⟩
      · exact absurd ⟨t, ht⟩ hnever
  · have hb : localMidnightUtc zone b = b := localMidnightUtc_of_not_once hzone (hday ▸ honce)
    rw [localMidnightUtc_of_not_once hzone honce, hb]
    constructor
    · rintro ⟨hab, -, -⟩
      exact .inr ⟨honce, hab⟩
    · rintro (⟨t, ht, -⟩ | ⟨-, hab⟩)
      · exact absurd ⟨t, ht⟩ honce
      · exact ⟨hab, le_refl _, le_refl _⟩

end Budget

/-- Havana in 2026, where the clocks go back from one in the morning of the first
of November to midnight: four hours behind UTC until then, five hours from then on. -/
def havana : Zone where
  toLocal t := utc.toLocal (if t < 1793509200000000000 then t - 14400000000000
    else t - 18000000000000)
  fromLocal l :=
    let t := l.date * 86400000000000 + l.time
    if t < 1793491200000000000 then .single (t + 14400000000000)
    else if t ≤ 1793494800000000000 then .ambiguous (t + 14400000000000) (t + 18000000000000)
    else .single (t + 18000000000000)

theorem utc_toLocal_midnight_iff (t date : Int) :
    utc.toLocal t = midnightOf date ↔ t = date * 86400000000000 := by
  have hshown : utc.toLocal t = midnightOf date ↔
      t / 86400000000000 = date ∧ (t % 86400000000000).toNat = 0 := by
    rw [utc, midnightOf, NaiveDateTime.mk.injEq]
  rw [hshown]
  omega

theorem havana_toLocal_midnight_iff (t date : Int) :
    havana.toLocal t = midnightOf date ↔
      (if t < 1793509200000000000 then t - 14400000000000 else t - 18000000000000) =
        date * 86400000000000 :=
  utc_toLocal_midnight_iff _ date

/-- Twenty thousand seven hundred and fifty-eight days after the epoch comes the
first of November 2026. -/
theorem havana_single_midnight_iff (t date : Int) :
    (havana.fromLocal (midnightOf date)).single? = some t ↔
      date < 20758 ∧ t = date * 86400000000000 + 14400000000000 ∨
        20758 < date ∧ t = date * 86400000000000 + 18000000000000 := by
  have hlocal : havana.fromLocal (midnightOf date) =
      if date * 86400000000000 + (0 : Nat) < 1793491200000000000 then
        .single (date * 86400000000000 + (0 : Nat) + 14400000000000)
      else if date * 86400000000000 + (0 : Nat) ≤ 1793494800000000000 then
        .ambiguous (date * 86400000000000 + (0 : Nat) + 14400000000000)
          (date * 86400000000000 + (0 : Nat) + 18000000000000)
      else .single (date * 86400000000000 + (0 : Nat) + 18000000000000) := rfl
  rw [hlocal]
  split
  · show @Eq (Option Int) (some _) (some t) ↔ _
    rw [Option.some.injEq]
    omega
  · split
    · show @Eq (Option Int) none (some t) ↔ _
      simp only [reduceCtorEq, false_iff]
      omega
    · show @Eq (Option Int) (some _) (some t) ↔ _
      rw [Option.some.injEq]
      omega

theorem havana_showsOnce_midnight_iff (t date : Int) :
    havana.ShowsOnce (midnightOf date) t ↔
      date < 20758 ∧ t = date * 86400000000000 + 14400000000000 ∨
        20758 < date ∧ t = date * 86400000000000 + 18000000000000 := by
  rw [Zone.ShowsOnce, havana_toLocal_midnight_iff]
  constructor
  · intro h
    obtain ⟨hshown, honce⟩ := h
    -- a midnight shown four and five hours behind UTC is shown twice
    have hfour : havana.toLocal (date * 86400000000000 + 14400000000000) = midnightOf date →
        @Eq Int (date * 86400000000000 + 14400000000000) t := honce _
    have hfive : havana.toLocal (date * 86400000000000 + 18000000000000) = midnightOf date →
        @Eq Int (date * 86400000000000 + 18000000000000) t := honce _
    rw [havana_toLocal_midnight_iff] at hfour hfive
    split at hshown <;> split at hfour <;> split at hfive <;> omega
  · intro h
    refine ⟨by split <;> omega, fun (t' : Int) ht' => ?_⟩
    have hshown := (havana_toLocal_midnight_iff t' date).mp ht'
    show @Eq Int t' t
    split at hshown <;> omega

theorem havana_mapped : havana.Mapped := by
  intro date t
  rw [havana_single_midnight_iff, havana_showsOnce_midnight_iff]

/-- Two and three in the morning of the second of November, which has one midnight. -/
theorem day_begins_once_november_second :
    (Budget.localMidnightUtc havana 1793602800000000000 =
        Budget.localMidnightUtc havana 1793606400000000000 ∧
      Budget.localMidnightUtc havana 1793602800000000000 ≤ 1793602800000000000 ∧
      Budget.localMidnightUtc havana 1793606400000000000 ≤ 1793606400000000000) ↔
    (∃ t, havana.ShowsOnce (midnightOf (havana.toLocal 1793602800000000000).date) t ∧
      t ≤ 1793602800000000000 ∧ t ≤ 1793606400000000000) ∨
    (¬ ∃ t, havana.ShowsOnce (midnightOf (havana.toLocal 1793602800000000000).date) t) ∧
      (1793602800000000000 : DateTime) = 1793606400000000000 :=
  Budget.day_begins_once_iff havana_mapped (by decide)

/-- On the first of November every call counts from its own instant: ten and eleven
in the morning. -/
theorem day_of_two_midnights_begins_anew :
    ¬ ∀ (zone : Zone) (a b : DateTime), zone.Mapped →
      (zone.toLocal a).date = (zone.toLocal b).date →
      Budget.localMidnightUtc zone a = Budget.localMidnightUtc zone b ∧
        Budget.localMidnightUtc zone a ≤ a ∧ Budget.localMidnightUtc zone b ≤ b := by
  intro h
  have hcase := h havana 1793545200000000000 1793548800000000000 havana_mapped (by decide)
  exact absurd hcase.1 (by decide)

end OmarchyKids
