import Mathlib
import OmarchyKids.Agentd.Cutoffs
import OmarchyKids.Agentd.Grants

/-!
# OmarchyKids.Agentd.Limits

What the value of a limit does, from 0 to the top of its range.

`Status` and `check_allowed` read the same limit and encode "none" differently:
`Status` says 0, `check_allowed` asks whether there is a limit at all. And where
`Status` subtracts with saturation, `check_allowed` adds the grace minute without
it. So the two disagree about a limit of 0, and about the largest one
(`status_matches_iff`); raising a limit to the largest one can take an app away
(`raised_limit_keeps_allowed_iff`).
-/

namespace OmarchyKids

open Daemon Handlers

/-! ### Counted minutes -/

/-- Whole minutes of the seconds counted today, as a `u32` holds them. Seconds that
cannot be read count as none. -/
def countedMinutes (readable : Bool) (seconds : Int) : Int :=
  if readable then seconds.tdiv 60 % 2 ^ 32 else 0

theorem countedMinutes_bounds (readable : Bool) (seconds : Int) :
    0 ≤ countedMinutes readable seconds ∧ countedMinutes readable seconds < 2 ^ 32 := by
  unfold countedMinutes
  split <;> omega

theorem enforcedMinutes_toNat (p : Platform) (env : Env) (s : State) (app : Option String) :
    ((enforcedMinutes p env s app).toNat : Int) =
      countedMinutes (readable p env app) (usedToday p env s app) := by
  rw [enforcedMinutes_eq, countedMinutes]
  cases readable p env app with
  | false => rfl
  | true =>
      rw [if_pos rfl, if_pos rfl, Budget.minutesOf, UInt32.ofInt, UInt32.toNat_ofNat']
      omega

theorem saturatingSub_toNat (a b : UInt32) : (saturatingSub a b).toNat = a.toNat - b.toNat := by
  unfold saturatingSub
  split
  next h => exact UInt32.toNat_sub_of_le a b h
  next h =>
    have hlt : a.toNat < b.toNat := UInt32.lt_iff_toNat_lt.mp (UInt32.not_le.mp h)
    show 0 = a.toNat - b.toNat
    omega

namespace BudgetKind

/-- The comparison of `check_allowed` in numbers: the grace minute wraps. -/
theorem exceeded_iff (p : Platform) (env : Env) (s : State) (app : String) (k : BudgetKind) :
    k.exceeded p env s app = true ↔
      ∃ limit, k.limit p env s app = some limit ∧
        ((limit.toNat : Int) + 1) % 2 ^ 32 <
          countedMinutes (readable p env (k.scope app)) (usedToday p env s (k.scope app)) := by
  rw [exceeded, Option.any_eq_true]
  refine exists_congr fun limit => and_congr_right fun _ => ?_
  have hgrace : Budget.graceMinutes.toNat = 1 := rfl
  rw [decide_eq_true_iff, UInt32.lt_iff_toNat_lt, UInt32.toNat_add, hgrace,
    ← enforcedMinutes_toNat]
  omega

end BudgetKind

/-! ### Status and enforcement -/

/-- What a status payload says about the daily budget is what is enforced. -/
structure StatusMatches (p : Platform) (env : Env) (s : State) (payload : StatusPayload) : Prop where
  exhausted : ∀ app, (checkAllowed p env s app).reason = some BudgetKind.daily.reason →
    0 < payload.dailyBudgetMinutes ∧ payload.dailyRemainingMinutes = 0
  unlimited : payload.dailyBudgetMinutes = 0 →
    ∀ app, (checkAllowed p env s app).reason ≠ some BudgetKind.daily.reason

/-- The limits and counted minutes at which both ends of a limit agree: a limit of
0 must not be used up, and the largest must be untouched or used to its end. -/
def LimitShown (limit : UInt32) (minutes : Int) : Prop :=
  (limit.toNat = 0 → minutes ≤ 1) ∧
    (limit.toNat = 2 ^ 32 - 1 → minutes = 0 ∨ minutes = 2 ^ 32 - 1)

theorem limitShown_iff {limit used : UInt32} {minutes : Int} (hused : (used.toNat : Int) = minutes) :
    LimitShown limit minutes ↔
      (((limit.toNat : Int) + 1) % 2 ^ 32 < minutes →
        0 < limit ∧ saturatingSub limit used = 0) := by
  have hlimit := limit.toNat_lt
  have hrange := used.toNat_lt
  have hzero : saturatingSub limit used = 0 ↔ limit.toNat - used.toNat = 0 := by
    rw [← saturatingSub_toNat, ← UInt32.toNat_inj]
    rfl
  rw [hzero, UInt32.lt_iff_toNat_lt, LimitShown, ← hused]
  change _ ↔ (_ → 0 < limit.toNat ∧ _)
  omega

/-- When `check_allowed` refuses on account of the daily budget. -/
theorem daily_refuses_iff (p : Platform) (env : Env) (s : State) (app : String) :
    (checkAllowed p env s app).reason = some BudgetKind.daily.reason ↔
      (s.config.isAppAllowed app = true ∧
        Budget.inBlockedWindow p s.config env.nowLocal = false) ∧
      ∃ limit, s.config.dailyTotalMinutesToday (p.zone.toLocal env.nowLocal).weekday = some limit ∧
        ((limit.toNat : Int) + 1) % 2 ^ 32 <
          countedMinutes (readable p env none) (usedToday p env s none) := by
  have hreached : BudgetKind.daily.Reached p env s app ↔ s.config.isAppAllowed app = true ∧
      Budget.inBlockedWindow p s.config env.nowLocal = false := by
    simp [BudgetKind.reached_iff]
  rw [BudgetKind.daily.refuses_iff, hreached, BudgetKind.daily.exceeded_iff]
  rfl

/-- `Status` tells the parent what is enforced exactly when no app gets as far as
the daily budget, none is set for today, or it is one both ends agree about. -/
theorem status_matches_iff (p : Platform) (env : Env) (s : State) :
    ∃ payload, handleStatus p env s = .okWith payload.toValue ∧
      (StatusMatches p env s payload ↔
        ∀ app, s.config.isAppAllowed app = true →
          Budget.inBlockedWindow p s.config env.nowLocal = false →
          ∀ limit, s.config.dailyTotalMinutesToday (p.zone.toLocal env.nowLocal).weekday =
              some limit →
            LimitShown limit (countedMinutes (readable p env none) (usedToday p env s none))) := by
  refine ⟨statusPayload p env s, rfl, ?_⟩
  have hshown := fun limit => @limitShown_iff limit _ _ (enforcedMinutes_toNat p env s none)
  have hbudget : (statusPayload p env s).dailyBudgetMinutes =
      (s.config.dailyTotalMinutesToday (p.zone.toLocal env.nowLocal).weekday).getD 0 := rfl
  have hremaining : (statusPayload p env s).dailyRemainingMinutes =
      saturatingSub ((s.config.dailyTotalMinutesToday (p.zone.toLocal env.nowLocal).weekday).getD 0)
        (enforcedMinutes p env s none) := rfl
  constructor
  · intro hmatches app happ hwindow limit hlimit
    rw [hshown]
    intro hover
    have hexhausted := hmatches.exhausted app
      ((daily_refuses_iff p env s app).mpr ⟨⟨happ, hwindow⟩, limit, hlimit, hover⟩)
    rw [hbudget, hremaining, hlimit] at hexhausted
    exact hexhausted
  · intro hagree
    have hexhausted : ∀ app, (checkAllowed p env s app).reason = some BudgetKind.daily.reason →
        0 < (statusPayload p env s).dailyBudgetMinutes ∧
          (statusPayload p env s).dailyRemainingMinutes = 0 := by
      intro app hrefused
      obtain ⟨⟨happ, hwindow⟩, limit, hlimit, hover⟩ := (daily_refuses_iff p env s app).mp hrefused
      rw [hbudget, hremaining, hlimit]
      exact (hshown limit).mp (hagree app happ hwindow limit hlimit) hover
    refine ⟨hexhausted, fun hzero app hrefused => ?_⟩
    have hpos := (hexhausted app hrefused).1
    rw [hzero] at hpos
    exact absurd hpos (lt_irrefl 0)

/-- Puzzles since just after midnight, on a Tuesday that allows `minutes`. -/
def tuesdayOf (minutes : UInt32) : State :=
  { playing with config := { unlockedConfig with
      timeBudget := { dailyTotalMinutes := [("tue", minutes)] } } }

/-- On a day of 0 minutes the app is refused after the second one, and the parent
reads that no limit is configured. -/
theorem zero_limit_is_shown_as_none :
    ¬ ∀ (p : Platform) (env : Env) (s : State) (payload : StatusPayload),
      handleStatus p env s = .okWith payload.toValue → StatusMatches p env s payload := by
  intro h
  have hmatches := h tablePlatform (secondsLater 120) (tuesdayOf 0)
    (statusPayload tablePlatform (secondsLater 120) (tuesdayOf 0)) rfl
  exact hmatches.unlimited (by decide +kernel) "org.kde.gcompris" (by decide +kernel)

/-! ### Raising a limit -/

/-- Where a limit stands in the policy. -/
inductive LimitKey
  | daily (weekday : String)
  | perApp (app weekday : String)
  deriving DecidableEq, Repr

def Config.limitAt (c : Config) : LimitKey → Option UInt32
  | .daily weekday => c.timeBudget.dailyTotalMinutes.lookup weekday
  | .perApp app weekday => (c.timeBudget.perAppMinutes.lookup app).bind fun w => w.lookup weekday

/-- `c'` is `c` with the limit at `key` raised from `a` to `b`. -/
structure Config.Raised (c : Config) (key : LimitKey) (a b : UInt32) (c' : Config) : Prop where
  rest : c' = { c with timeBudget := c'.timeBudget }
  before : c.limitAt key = some a
  after : c'.limitAt key = some b
  larger : a < b
  others : ∀ key', key' ≠ key → c'.limitAt key' = c.limitAt key'

namespace BudgetKind

/-- The limit a budget looks up for an app today. -/
def key (p : Platform) (env : Env) (app : String) : BudgetKind → LimitKey
  | daily => .daily (weekdayKey (p.zone.toLocal env.nowLocal).weekday)
  | perApp => .perApp app (weekdayKey (p.zone.toLocal env.nowLocal).weekday)

theorem limit_eq (p : Platform) (env : Env) (s : State) (app : String) (k : BudgetKind) :
    k.limit p env s app = s.config.limitAt (k.key p env app) := by
  cases k <;> rfl

def other : BudgetKind → BudgetKind
  | daily => perApp
  | perApp => daily

theorem key_other_ne (p : Platform) (env : Env) (app : String) (k : BudgetKind) :
    k.other.key p env app ≠ k.key p env app := by
  cases k <;> simp [key, other]

theorem key_injective {p : Platform} {env : Env} {app : String} {k k' : BudgetKind}
    (h : k'.key p env app = k.key p env app) : k' = k := by
  cases k <;> cases k' <;> simp [key] at h <;> rfl

end BudgetKind

/-- The checks in the order that suits a budget: all others, then its own. -/
theorem allowed_iff (p : Platform) (env : Env) (s : State) (app : String) (k : BudgetKind) :
    (checkAllowed p env s app).allowed = true ↔
      (s.config.isAppAllowed app = true ∧
        Budget.inBlockedWindow p s.config env.nowLocal = false ∧
        k.other.exceeded p env s app = false) ∧ k.exceeded p env s app = false := by
  have hchecks : (checkAllowed p env s app).allowed = true ↔
      s.config.isAppAllowed app = true ∧
        Budget.inBlockedWindow p s.config env.nowLocal = false ∧
        BudgetKind.daily.exceeded p env s app = false ∧
        BudgetKind.perApp.exceeded p env s app = false := by
    rw [checkAllowed_eq]
    change (if !s.config.isAppAllowed app then _ else
      if Budget.inBlockedWindow p s.config env.nowLocal then _ else
      if BudgetKind.daily.exceeded p env s app then _ else
      if BudgetKind.perApp.exceeded p env s app then _ else _ : AllowedPayload).allowed = true ↔ _
    cases s.config.isAppAllowed app <;> cases Budget.inBlockedWindow p s.config env.nowLocal <;>
      cases BudgetKind.daily.exceeded p env s app <;>
      cases BudgetKind.perApp.exceeded p env s app <;> decide
  rw [hchecks]
  cases k <;> simp only [BudgetKind.other] <;> tauto

/-- Only the limit tells two policies apart that differ in one. -/
theorem exceeded_of_limit {p : Platform} {env : Env} {s : State} {app : String} {k : BudgetKind}
    {c : Config} {limit : UInt32} (hlimit : c.limitAt (k.key p env app) = some limit) :
    k.exceeded p env { s with config := c } app = false ↔
      countedMinutes (readable p env (k.scope app)) (usedToday p env s (k.scope app)) ≤
        ((limit.toNat : Int) + 1) % 2 ^ 32 := by
  have hiff := k.exceeded_iff p env { s with config := c } app
  rw [k.limit_eq] at hiff
  change (_ ↔ ∃ l, c.limitAt (k.key p env app) = some l ∧ _ < countedMinutes
    (readable p env (k.scope app)) (usedToday p env s (k.scope app))) at hiff
  rw [← Bool.not_eq_true, hiff, hlimit]
  simp

theorem exceeded_congr {p : Platform} {env : Env} {s : State} {app : String} {k : BudgetKind}
    {c c' : Config} (h : c'.limitAt (k.key p env app) = c.limitAt (k.key p env app)) :
    k.exceeded p env { s with config := c' } app = k.exceeded p env { s with config := c } app := by
  rw [BudgetKind.exceeded, BudgetKind.exceeded, k.limit_eq, k.limit_eq]
  change (c'.limitAt _).any _ = (c.limitAt _).any _
  rw [h]
  rfl

/-- An app that was allowed stays allowed when one limit is raised — unless that
limit is one the app is held against today, it is raised to the largest one, and
some minutes have been used but not more than the smaller limit and its grace. -/
theorem raised_limit_keeps_allowed_iff (p : Platform) (env : Env) (s : State) (app : String)
    {key : LimitKey} {a b : UInt32} {c c' : Config} (h : c.Raised key a b c') :
    ((checkAllowed p env { s with config := c } app).allowed = true →
        (checkAllowed p env { s with config := c' } app).allowed = true) ↔
      ∀ k : BudgetKind, k.key p env app = key → b.toNat = 2 ^ 32 - 1 →
        c.isAppAllowed app = true → Budget.inBlockedWindow p c env.nowLocal = false →
        k.other.exceeded p env { s with config := c } app = false →
        let minutes :=
          countedMinutes (readable p env (k.scope app)) (usedToday p env s (k.scope app))
        minutes = 0 ∨ (a.toNat : Int) + 1 < minutes := by
  have happ : c'.isAppAllowed app = c.isAppAllowed app := by
    rw [h.rest]
    rfl
  have hwindow : Budget.inBlockedWindow p c' env.nowLocal =
      Budget.inBlockedWindow p c env.nowLocal := by
    rw [h.rest]
    rfl
  have hsame : ∀ k : BudgetKind, k.key p env app ≠ key →
      k.exceeded p env { s with config := c' } app =
        k.exceeded p env { s with config := c } app :=
    fun k hk => exceeded_congr (h.others _ hk)
  by_cases hconsulted : ∃ k : BudgetKind, k.key p env app = key
  · obtain ⟨k, rfl⟩ := hconsulted
    have hminutes := countedMinutes_bounds (readable p env (k.scope app))
      (usedToday p env s (k.scope app))
    have hlarger := UInt32.lt_iff_toNat_lt.mp h.larger
    have hrange := b.toNat_lt
    rw [allowed_iff p env _ app k, allowed_iff p env _ app k, hsame _ (k.key_other_ne p env app),
      exceeded_of_limit h.before, exceeded_of_limit h.after]
    change (((c.isAppAllowed app = true ∧ Budget.inBlockedWindow p c env.nowLocal = false ∧ _) ∧ _) →
      ((c'.isAppAllowed app = true ∧ Budget.inBlockedWindow p c' env.nowLocal = false ∧ _) ∧ _)) ↔ _
    rw [happ, hwindow]
    constructor
    · intro hkeeps k' hk' hmax happ hwindow hother
      obtain rfl := BudgetKind.key_injective hk'
      by_contra hnot
      rw [not_or] at hnot
      have hraised := (hkeeps ⟨⟨happ, hwindow, hother⟩, by omega⟩).2
      omega
    · rintro hcond ⟨hreached, hunder⟩
      refine ⟨hreached, ?_⟩
      by_cases hmax : b.toNat = 2 ^ 32 - 1
      · have hminutes := hcond k rfl hmax hreached.1 hreached.2.1 hreached.2.2
        dsimp only at hminutes
        omega
      · omega
  · have hsame : ∀ k : BudgetKind, k.exceeded p env { s with config := c' } app =
        k.exceeded p env { s with config := c } app :=
      fun k => hsame k fun heq => hconsulted ⟨k, heq⟩
    refine iff_of_true ?_ fun k hk => absurd ⟨k, hk⟩ hconsulted
    rw [allowed_iff p env _ app .daily, allowed_iff p env _ app .daily, hsame, hsame]
    change (((c.isAppAllowed app = true ∧ Budget.inBlockedWindow p c env.nowLocal = false ∧ _) ∧ _) →
      ((c'.isAppAllowed app = true ∧ Budget.inBlockedWindow p c' env.nowLocal = false ∧ _) ∧ _))
    rw [happ, hwindow]
    exact id

theorem tuesdayOf_raised {a b : UInt32} (h : a < b) :
    (tuesdayOf a).config.Raised (.daily "tue") a b (tuesdayOf b).config where
  rest := rfl
  before := rfl
  after := rfl
  larger := h
  others key' hne := by
    cases key' with
    | perApp app weekday => rfl
    | daily weekday =>
        have hweekday : (weekday == "tue") = false := by
          rw [beq_eq_false_iff_ne]
          exact fun heq => hne (heq ▸ rfl)
        have hlookup : ∀ minutes : UInt32, List.lookup weekday [("tue", minutes)] = none := by
          intro minutes
          rw [List.lookup_cons, hweekday]
          rfl
        exact (hlookup b).trans (hlookup a).symm

theorem raised_limit_keeps_allowed_iff_tuesday :
    ((checkAllowed tablePlatform (secondsLater 600) { playing with config := (tuesdayOf 30).config }
          "org.kde.gcompris").allowed = true →
        (checkAllowed tablePlatform (secondsLater 600) { playing with config := (tuesdayOf 45).config }
          "org.kde.gcompris").allowed = true) ↔
      ∀ k : BudgetKind, k.key tablePlatform (secondsLater 600) "org.kde.gcompris" = .daily "tue" →
        (45 : UInt32).toNat = 2 ^ 32 - 1 →
        (tuesdayOf 30).config.isAppAllowed "org.kde.gcompris" = true →
        Budget.inBlockedWindow tablePlatform (tuesdayOf 30).config (secondsLater 600).nowLocal =
          false →
        k.other.exceeded tablePlatform (secondsLater 600)
          { playing with config := (tuesdayOf 30).config } "org.kde.gcompris" = false →
        let minutes := countedMinutes
          (readable tablePlatform (secondsLater 600) (k.scope "org.kde.gcompris"))
          (usedToday tablePlatform (secondsLater 600) playing (k.scope "org.kde.gcompris"))
        minutes = 0 ∨ ((30 : UInt32).toNat : Int) + 1 < minutes :=
  raised_limit_keeps_allowed_iff tablePlatform (secondsLater 600) playing "org.kde.gcompris"
    (tuesdayOf_raised (by decide))

/-- Ten minutes into the puzzles, half an hour a day leaves them running, and the
largest number there is does not. -/
theorem largest_limit_is_exhausted_at_once :
    ¬ ∀ (p : Platform) (env : Env) (s : State) (app : String) (key : LimitKey) (a b : UInt32)
      (c c' : Config), c.Raised key a b c' →
      (checkAllowed p env { s with config := c } app).allowed = true →
      (checkAllowed p env { s with config := c' } app).allowed = true := by
  intro h
  have hallowed := h tablePlatform (secondsLater 600) playing "org.kde.gcompris" (.daily "tue") 30
    4294967295 _ _ (tuesdayOf_raised (by decide)) (by decide +kernel)
  revert hallowed
  decide +kernel

end OmarchyKids
