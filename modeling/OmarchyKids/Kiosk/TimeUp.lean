import OmarchyKids.Agentd.Cutoffs
import OmarchyKids.Kiosk.Bookkeeping
import OmarchyKids.Kiosk.Enforcement
import OmarchyKids.Kiosk.Launches

/-!
# OmarchyKids.Kiosk.TimeUp

Once a budget is used up, it is used up for the day.

The daemon holds used minutes against a limit each time it is asked, and forgets the answer.
That a refusal lasts till midnight rests on the books: while starts and stops come from the
wrappers, used time never falls (`Usage.run_used`), and no request changes a limit. So what
has been refused once is refused at every later moment of the day (`exceeded_run`), and in
the kiosk nothing starts any more that had not been cleared before, and what runs is cut off
in time (`time_is_up`).
-/

namespace OmarchyKids

open Handlers Daemon Spans

/-! ### Used time never falls -/

namespace Session

variable {x : Session} {now later : DateTime}

theorem seconds_mono (h : x.span.SettledBy now) (hle : now ≤ later) :
    x.seconds now ≤ x.seconds later := by
  refine numSeconds_mono (Int.sub_le_sub_right ?_ _)
  cases hstop : x.span.stop with
  | none => rwa [Span.endBy_of_running hstop, Span.endBy_of_running hstop]
  | some stop =>
      have hstopped := (h.2 stop hstop).2
      rw [Span.endBy_of_stopped hstop hstopped,
        Span.endBy_of_stopped hstop (hstopped.trans hle)]

/-- A session that is stopped keeps the seconds it has lasted. -/
theorem seconds_le_stopAt (h : x.span.SettledBy now) (hle : now ≤ later) (app : String)
    (pid : UInt32) : x.seconds now ≤ (x.stopAt app pid now).seconds later := by
  unfold stopAt
  split
  · rename_i hmatch
    simp only [Bool.and_eq_true, running_iff] at hmatch
    refine le_of_eq ?_
    rw [seconds, seconds, Span.elapsed, Span.elapsed,
      Span.endBy_of_running hmatch.1.1, Span.endBy_of_stopped rfl hle]
  · exact seconds_mono h hle

end Session

theorem usageSeconds_eq_sum (sessions : List Session) (app : Option String)
    (since now : DateTime) :
    usageSeconds sessions app since now =
      (sessions.map fun x => if x.counts app since = true then x.seconds now else 0).sum :=
  Sums.sum_filter _ _ _

namespace Usage

/-- Seconds used so far. -/
def used (u : Usage) (app : Option String) (since : DateTime) : Int :=
  usageSeconds u.sessions app since u.clock

variable {app : Option String} {since : DateTime}

/-- Time goes by. -/
theorem usageSeconds_mono {u : Usage} {now later : DateTime} (hu : u.WellFormed)
    (hnow : u.clock ≤ now) (hle : now ≤ later) :
    usageSeconds u.sessions app since now ≤ usageSeconds u.sessions app since later := by
  rw [usageSeconds_eq_sum, usageSeconds_eq_sum]
  refine List.sum_le_sum fun x hx => ?_
  split
  · exact Session.seconds_mono ((hu.settled x hx).mono hnow) hle
  · exact le_refl 0

theorem step_used {u : Usage} {e : Env × Event} (hu : u.WellFormed) (he : u.Proper e) :
    u.used app since ≤ (u.step e).used app since := by
  obtain ⟨env, event⟩ := e
  have hclock : u.clock ≤ env.nowUtc := he.1
  have hlater := @usageSeconds_mono app since u u.clock env.nowUtc hu le_rfl hclock
  match event with
  | .request (.wrapperStart a pid) =>
      refine hlater.trans ?_
      simp only [used, step, usageSeconds_eq_sum, List.map_append, List.sum_append,
        List.map_singleton, List.sum_singleton]
      have hnew : (⟨a, pid, ⟨env.nowUtc, none⟩⟩ : Session).seconds env.nowUtc = 0 := by
        simp [Session.seconds, Span.elapsed, Span.endBy]
      rw [hnew, ite_self, add_zero]
  | .request (.wrapperStop a pid code) =>
      refine hlater.trans ?_
      simp only [used, step, usageSeconds_eq_sum, List.map_map]
      refine List.sum_le_sum fun x hx => ?_
      have hcounts : (x.stopAt a pid env.nowUtc).counts app since = x.counts app since := by
        simp [Session.counts]
      rw [Function.comp_apply, hcounts]
      split
      · exact Session.seconds_le_stopAt ((hu.settled x hx).mono hclock) le_rfl a pid
      · exact le_refl 0
  | .tick | .request (.ping) | .request .status | .request (.setTier ..) | .request (.unlock ..)
  | .request (.override ..) | .request (.overrideFailed ..) | .request (.report ..)
  | .request (.wrapperAuthorize ..) | .request (.wrapperPoll ..) | .request (.pushContent ..) =>
      exact hlater

theorem run_used {u : Usage} {es : List (Env × Event)} (hu : u.WellFormed)
    (hes : Runs.Along step Proper u es) :
    u.used app since ≤ (Runs.run step u es).used app since := by
  have hrun := Runs.run_invariant_along (C := Proper)
    (I := fun u' => u.used app since ≤ u'.used app since ∧ u'.WellFormed) ⟨le_rfl, hu⟩
    (fun u' e he h => ⟨h.1.trans (step_used h.2 he), step_wellFormed h.2 he⟩) hes
  exact hrun.1

/-- Nothing has been used since an instant that is still to come. -/
theorem used_nonpos {u : Usage} (hu : u.WellFormed) (hle : u.clock ≤ since) :
    u.used app since ≤ 0 := by
  rw [used, usageSeconds_eq_sum]
  refine Sums.sum_nonpos fun n hn => ?_
  obtain ⟨x, hx, rfl⟩ := List.mem_map.mp hn
  split
  · rename_i hcounts
    simp only [Session.counts, Bool.and_eq_true, decide_eq_true_iff] at hcounts
    have hsettled := hu.settled x hx
    -- the session has begun at this very instant
    have hend : x.span.endBy u.clock ≤ x.span.start := by
      refine le_trans ?_ (hle.trans hcounts.1)
      cases hstop : x.span.stop with
      | none => rw [Span.endBy_of_running hstop]
      | some stop =>
          rw [Span.endBy_of_stopped hstop (hsettled.2 stop hstop).2]
          exact (hsettled.2 stop hstop).2
    exact numSeconds_mono (sub_nonpos.mpr hend)
  · exact le_refl 0

/-- The sessions as they stand at a later instant. -/
def seenAt (u : Usage) (now : DateTime) : Usage := { u with clock := now }

@[simp] theorem seenAt_sessions (u : Usage) (now : DateTime) :
    (u.seenAt now).sessions = u.sessions := rfl

@[simp] theorem seenAt_clock (u : Usage) (now : DateTime) : (u.seenAt now).clock = now := rfl

theorem WellFormed.seenAt {u : Usage} (h : u.WellFormed) {now : DateTime} (hle : u.clock ≤ now) :
    (u.seenAt now).WellFormed :=
  ⟨fun x hx => (h.settled x hx).mono hle, h.fourDigit, h.unique⟩

/-- One app has used no more than all of them. -/
theorem usageSeconds_le_all {u : Usage} {now : DateTime} (hu : u.WellFormed)
    (hnow : u.clock ≤ now) (app : Option String) :
    usageSeconds u.sessions app since now ≤ usageSeconds u.sessions none since now := by
  rw [usageSeconds_eq_sum, usageSeconds_eq_sum]
  refine List.sum_le_sum fun x hx => ?_
  have hnonneg : 0 ≤ x.seconds now :=
    numSeconds_nonneg (Span.elapsed_nonneg ((hu.settled x hx).mono hnow))
  have hall : x.counts app since = true → x.counts none since = true := by
    simp only [Session.counts, Bool.and_eq_true, Option.all_none, and_true]
    exact And.left
  split
  · rename_i hcounts
    rw [if_pos (hall hcounts)]
  · split
    · exact hnonneg
    · exact le_refl 0

end Usage

/-! ### A budget that is used up -/

theorem weekday_of_date {a b : NaiveDateTime} (h : a.date = b.date) : a.weekday = b.weekday := by
  rw [NaiveDateTime.weekday, NaiveDateTime.weekday, h]

namespace BudgetKind

variable {p : Platform} {k : BudgetKind} {env : Env} {app : String}

/-- A budget that is used up is a reason to refuse, if there is no other. -/
theorem refused_of_exceeded {s : State} (h : k.exceeded p env s app = true) :
    (checkAllowed p env s app).allowed = false := by
  rw [checkAllowed_eq]
  split
  · rfl
  · split
    · rfl
    · cases k with
      | daily => exact congrArg AllowedPayload.allowed (if_pos h)
      | perApp =>
          split
          · rfl
          · exact congrArg AllowedPayload.allowed (if_pos h)

/-- The comparison, in terms of the sessions. -/
theorem exceeded_iff_seconds {u : Usage} {s : State} (h : Ledger u.sessions s) (hu : u.WellFormed)
    (hsql : ∀ stmt, env.sql stmt = none) (hnow : u.clock ≤ env.nowUtc)
    (hyear : FourDigitYear (Budget.localMidnightUtc p.zone env.nowLocal)) :
    k.exceeded p env s app = true ↔ ∃ limit, k.limit p env s app = some limit ∧
      ((limit.toNat : Int) + 1) % 2 ^ 32 <
        usageSeconds u.sessions (k.scope app) (Budget.localMidnightUtc p.zone env.nowLocal)
          env.nowUtc / 60 % 2 ^ 32 := by
  obtain ⟨used, hused, hminutes⟩ := usedMinutes_eq (k.scope app) h hu hsql hnow hyear
  have henforced : enforcedMinutes p env s (k.scope app) = used := by
    rw [enforcedMinutes, hused]
    rfl
  rw [exceeded, henforced, Option.any_eq_true, ← hminutes]
  refine exists_congr fun limit => and_congr_right fun _ => ?_
  rw [decide_eq_true_iff, UInt32.lt_iff_toNat_lt, UInt32.toNat_add,
    show Budget.graceMinutes.toNat = 1 from rfl]
  omega

/-- What is used up stays used up: at any later moment of the day at which less than 2 ^ 32
minutes have been used, the budget is exceeded again. -/
theorem exceeded_run {u : Usage} {s : State} {es : List (Env × Event)} {later : Env}
    (h : Ledger u.sessions s) (hu : u.WellFormed)
    (hes : Runs.Along Usage.step Usage.Proper u es) (hclock : u.clock = env.nowUtc)
    (hread : env.nowUtc ≤ env.nowLocal)
    (hyear : FourDigitYear (Budget.localMidnightUtc p.zone env.nowLocal))
    (hsql : ∀ stmt, env.sql stmt = none) (hsql' : ∀ stmt, later.sql stmt = none)
    (hlater : (Runs.run Usage.step u es).clock ≤ later.nowUtc)
    (hday : (p.zone.toLocal env.nowLocal).date = (p.zone.toLocal later.nowLocal).date)
    (hsmall : usageSeconds (Runs.run Usage.step u es).sessions none
      (Budget.localMidnightUtc p.zone env.nowLocal) later.nowUtc < 60 * 2 ^ 32)
    (hover : k.exceeded p env s app = true) :
    k.exceeded p later (Runs.run (step p) s es) app = true := by
  set u' := Runs.run Usage.step u es
  obtain ⟨hledger', hu'⟩ : Ledger u'.sessions (Runs.run (step p) s es) ∧ u'.WellFormed :=
    run_ledger h hu hes
  rw [exceeded_iff_seconds h hu hsql hclock.le hyear] at hover
  obtain ⟨limit, hlimit, hless⟩ := hover
  have hsections : (Runs.run (step p) s es).config.sections = s.config.sections :=
    Runs.run_invariant (I := fun s' : State => s'.config.sections = s.config.sections) rfl
      (fun s' e h => (step_sections_configFile p s' e.1 e.2).1.trans h) es
  have hlimit' : k.limit p later (Runs.run (step p) s es) app = some limit := by
    rw [← hlimit]
    have hbudget := congrArg Sections.timeBudget hsections
    simp only [Config.sections] at hbudget
    cases k <;>
      simp only [BudgetKind.limit, Config.dailyTotalMinutesToday, Config.perAppMinutesToday,
        hbudget, weekday_of_date hday]
  have hnonneg := @usageSeconds_nonneg u env.nowUtc
    (Budget.localMidnightUtc p.zone env.nowLocal) (k.scope app) hu hclock.le
  have hpast : usageSeconds u.sessions (k.scope app)
      (Budget.localMidnightUtc p.zone env.nowLocal) env.nowUtc = u.used (k.scope app)
        (Budget.localMidnightUtc p.zone env.nowLocal) := by
    rw [Usage.used, hclock]
  rcases localMidnightUtc_of_same_day hday with hsame | hself
  · rw [exceeded_iff_seconds hledger' hu' hsql' hlater (hsame ▸ hyear), ← hsame]
    refine ⟨limit, hlimit', ?_⟩
    have hgrown : u.used (k.scope app) (Budget.localMidnightUtc p.zone env.nowLocal) ≤
        usageSeconds u'.sessions (k.scope app) (Budget.localMidnightUtc p.zone env.nowLocal)
          later.nowUtc :=
      (Usage.run_used hu hes).trans (Usage.usageSeconds_mono hu' le_rfl hlater)
    have hle : usageSeconds u'.sessions (k.scope app)
        (Budget.localMidnightUtc p.zone env.nowLocal) later.nowUtc ≤
          usageSeconds u'.sessions none (Budget.localMidnightUtc p.zone env.nowLocal)
            later.nowUtc := Usage.usageSeconds_le_all hu' hlater (k.scope app)
    rw [← hpast] at hgrown
    omega
  · -- such a day has used no time so far, at any instant
    have hnothing : u.used (k.scope app) (Budget.localMidnightUtc p.zone env.nowLocal) ≤ 0 :=
      Usage.used_nonpos hu (hclock.le.trans (hread.trans hself.ge))
    rw [← hpast] at hnothing
    omega

end BudgetKind

/-! ### In the kiosk -/

namespace Kiosk

/-- What the daemon hears later on the day of `env`: the log works, and less than 2 ^ 32
minutes have been used. -/
structure SameDay (p : Platform) (env : Env) (u : Usage) (e : Env × Daemon.Event) : Prop where
  timely : u.Timely e
  date : (p.zone.toLocal env.nowLocal).date = (p.zone.toLocal e.1.nowLocal).date
  small : usageSeconds u.sessions none (Budget.localMidnightUtc p.zone env.nowLocal) e.1.nowUtc <
    60 * 2 ^ 32

/-- In a regular run of a kiosk with a fresh daemon, at the moment `env` after `past`, the
budget of this app is used up; and `rest` is on the same day. -/
structure TimeUp (p : Platform) (u₀ : Usage) (s₀ : State) (past rest : List Move) (env : Env)
    (app : String) (kind : BudgetKind) : Prop where
  fresh : u₀.Fresh s₀
  regular : Runs.Along (step p) Regular ⟨s₀, []⟩ (past ++ rest)
  timely : Runs.Along Usage.step Usage.Timely u₀ (trace p ⟨s₀, []⟩ past)
  now : (Runs.run Usage.step u₀ (trace p ⟨s₀, []⟩ past)).clock ≤ env.nowUtc
  /-- The two clock readings, in this order. -/
  read : env.nowUtc ≤ env.nowLocal
  year : FourDigitYear (Budget.localMidnightUtc p.zone env.nowLocal)
  sql : ∀ stmt, env.sql stmt = none
  exceeded : kind.exceeded p env (run p ⟨s₀, []⟩ past).daemon app = true
  sameDay : Runs.Along Usage.step (SameDay p env)
    ((Runs.run Usage.step u₀ (trace p ⟨s₀, []⟩ past)).seenAt env.nowUtc)
    (trace p (run p ⟨s₀, []⟩ past) rest)

/-- Whose apps the budget holds. -/
def Held (kind : BudgetKind) (app desktopId : String) : Prop := kind = .daily ∨ desktopId = app

theorem exceeded_of_held {p : Platform} {env : Env} {s : State} {kind : BudgetKind}
    {app desktopId : String} (h : Held kind app desktopId) :
    kind.exceeded p env s desktopId = kind.exceeded p env s app := by
  rcases h with rfl | rfl
  · rfl
  · rfl

/-- Whatever is asked later that day is refused. -/
theorem TimeUp.refused {p : Platform} {u₀ : Usage} {s₀ : State} {past rest : List Move} {env : Env}
    {app : String} {kind : BudgetKind} (h : TimeUp p u₀ s₀ past rest env app kind)
    {before after : List Move} {m : Move} (hrest : rest = before ++ m :: after)
    {e : Env × Daemon.Event} (he : (run p ⟨s₀, []⟩ (past ++ before)).heard m = some e)
    {desktopId : String} (hheld : Held kind app desktopId) :
    (checkAllowed p e.1 (run p ⟨s₀, []⟩ (past ++ before)).daemon desktopId).allowed = false := by
  subst hrest
  set k := run p ⟨s₀, []⟩ past
  set u := Runs.run Usage.step u₀ (trace p ⟨s₀, []⟩ past)
  obtain ⟨hregPast, hregRest⟩ := (Runs.along_append _ _ _).mp h.regular
  obtain ⟨hregBefore, -⟩ := (Runs.along_append _ _ _).mp hregRest
  have hday := h.sameDay
  rw [trace_append, trace_cons, ← run_append, he, Option.toList_some, List.singleton_append,
    Runs.along_append] at hday
  obtain ⟨hdayBefore, hmoment, -⟩ := hday
  -- the books at the moment, and from there to the question
  obtain ⟨hproper, hbooked⟩ := booked_run (booked_fresh h.fresh) hregPast h.timely
  obtain ⟨hledger, hwell⟩ := run_ledger (p := p) h.fresh.ledger h.fresh.wellFormed hproper
  rw [← show k.daemon = _ from daemon_run p ⟨s₀, []⟩ past] at hledger
  obtain ⟨hproper', -⟩ := booked_run (u := u.seenAt env.nowUtc)
    (hbooked.other rfl) hregBefore (Runs.along_mono (fun _ _ hsame => hsame.timely) hdayBefore)
  refine BudgetKind.refused_of_exceeded (k := kind) ?_
  rw [exceeded_of_held hheld, run_append, daemon_run]
  exact BudgetKind.exceeded_run (u := u.seenAt env.nowUtc) hledger (hwell.seenAt h.now) hproper'
    rfl h.read h.year h.sql hmoment.timely.2.2 hmoment.timely.1 hmoment.date hmoment.small
    h.exceeded

/-- If the process polls in this move, it gets an answer. -/
def Answered (i : Nat) (k : Kiosk) : Move → Prop
  | .turn j t _ fate => j = i → t.waitFails = false ∧
      ∀ proc child, k.processes[i]? = some proc → proc.state.phase = .polling child →
        fate = .answered
  | _ => True

/-- Ended or told to end three steps after a poll was due, and ended or killed after the grace
period and two more. -/
def CutOff (p : Platform) (k : Kiosk) (i : Nat) (proc : Process) (child : UInt32) (now δ : Nat)
    (moves : List Move) : Prop :=
  let ended := ((run p k moves).processes[i]?.bind fun proc => proc.state.gone).isSome
  let es := Runs.written (Wrapper.step proc.desktopId) (Wrapper.out proc.desktopId) proc.state
    (turns p i k moves)
  let last := Wrapper.lastTurn now (turns p i k moves)
  (now + Wrapper.pollInterval + 3 * δ < last → ended ∨ .signalled child .term ∈ es) ∧
    (now + Wrapper.pollInterval + Wrapper.killGrace + 5 * δ < last →
      ended ∨ .signalled child .kill ∈ es)

theorem TimeUp.refuses {p : Platform} {u₀ : Usage} {s₀ : State} {past rest : List Move} {env : Env}
    {app : String} {kind : BudgetKind} (h : TimeUp p u₀ s₀ past rest env app kind)
    {before after : List Move} (hrest : rest = before ++ after) {i : Nat} {proc : Process}
    (hproc : (run p ⟨s₀, []⟩ (past ++ before)).processes[i]? = some proc)
    (hheld : Held kind app proc.desktopId)
    (hanswered : Runs.Along (step p) (Answered i) (run p ⟨s₀, []⟩ (past ++ before)) after) :
    Runs.Along (step p) (Refuses p i) (run p ⟨s₀, []⟩ (past ++ before)) after := by
  induction after generalizing before proc with
  | nil => trivial
  | cons m after ih =>
      have hnext : run p ⟨s₀, []⟩ (past ++ (before ++ [m])) =
          step p (run p ⟨s₀, []⟩ (past ++ before)) m := by
        rw [← List.append_assoc, run_concat]
      obtain ⟨hm, hafter⟩ := hanswered
      refine ⟨?_, ?_⟩
      · cases m with
        | daemon env e => trivial
        | launch desktopId => trivial
        | turn j t env' fate =>
            intro hj
            subst hj
            obtain ⟨hwait, hpolls⟩ := hm rfl
            refine ⟨hwait, fun proc' child hproc' hphase => ?_⟩
            obtain rfl := hpolls proc' child hproc' hphase
            obtain rfl := Option.some.inj (hproc.symm.trans hproc')
            have hheard : (run p ⟨s₀, []⟩ (past ++ before)).heard (.turn j t env' .answered) =
                some (env', .request (.wrapperPoll proc.desktopId child)) := by
              rw [heard, asked, hproc', Option.bind_some, hphase]
              rfl
            exact ⟨rfl, h.refused hrest hheard hheld⟩
      · rw [← hnext] at hafter ⊢
        have hproc' := process_step p hproc m
        rw [← hnext] at hproc'
        exact ih (by rw [hrest, List.append_assoc, List.singleton_append]) hproc' hheld hafter

/-- Nothing on a Tuesday but the grace. -/
def shortDay : State :=
  { letterGame with config := { letterGame.config with
      timeBudget := { dailyTotalMinutes := [("tue", 0)] } } }

/-- The game asks whether it may go on, three minutes after it was started. -/
def letterPolls : List Move :=
  List.replicate 4 (.turn 0 (letterTurn 20) (secondsLater 180) .answered)

/-- No session starts or ends, and one moment is as good as another. -/
theorem sameDay_of_env {p : Platform} {env : Env} {u : Usage} {es : List (Env × Daemon.Event)}
    (hsql : ∀ stmt, env.sql stmt = none) (hyear : FourDigitYear env.nowUtc)
    (hclock : u.clock = env.nowUtc)
    (hsmall : usageSeconds u.sessions none (Budget.localMidnightUtc p.zone env.nowLocal)
      env.nowUtc < 60 * 2 ^ 32)
    (hes : ∀ e ∈ es, e.1 = env ∧ ∀ req, e.2 = .request req → req.isSession = false) :
    Runs.Along Usage.step (SameDay p env) u es := by
  induction es generalizing u with
  | nil => trivial
  | cons e es ih =>
      obtain ⟨⟨rfl, hreq⟩, hes⟩ := List.forall_mem_cons.mp hes
      obtain ⟨hsessions, -⟩ := @Usage.step_of_not_session u e.1 e.2 hreq
      refine ⟨⟨⟨hclock.le, hyear, hsql⟩, rfl, hsmall⟩, ih rfl ?_ hes⟩
      rwa [show (u.step e).sessions = u.sessions from hsessions]

theorem letters_timeUp {past rest : List Move} {s₀ : State} (hfresh : freshUsage.Fresh s₀)
    (hregular : Runs.Along (step samplePlatform) Regular ⟨s₀, []⟩ (past ++ rest))
    (htimely : Runs.Along Usage.step Usage.Timely freshUsage (trace samplePlatform ⟨s₀, []⟩ past))
    (hnow : (Runs.run Usage.step freshUsage (trace samplePlatform ⟨s₀, []⟩ past)).clock ≤
      (secondsLater 180).nowUtc)
    (hexceeded : BudgetKind.daily.exceeded samplePlatform (secondsLater 180)
      (run samplePlatform ⟨s₀, []⟩ past).daemon "klettres" = true)
    (hsmall : usageSeconds
      (Runs.run Usage.step freshUsage (trace samplePlatform ⟨s₀, []⟩ past)).sessions none
        (Budget.localMidnightUtc utc (secondsLater 180).nowLocal) (secondsLater 180).nowUtc <
          60 * 2 ^ 32)
    (hes : ∀ e ∈ trace samplePlatform (run samplePlatform ⟨s₀, []⟩ past) rest,
      e.1 = secondsLater 180 ∧ ∀ req, e.2 = .request req → req.isSession = false) :
    TimeUp samplePlatform freshUsage s₀ past rest (secondsLater 180) "klettres" .daily where
  fresh := hfresh
  regular := hregular
  timely := htimely
  now := hnow
  read := by decide
  year := by decide
  sql _ := rfl
  exceeded := hexceeded
  sameDay := sameDay_of_env (fun _ => rfl) (by decide) rfl hsmall hes

theorem shortDay_fresh : freshUsage.Fresh shortDay where
  rows := rfl
  active := rfl
  stopped := by simp [freshUsage]
  settled := by simp [freshUsage]
  fourDigit := by simp [freshUsage]

/-- Neither a start nor a stop. -/
def noSession : Daemon.Event → Bool
  | .tick => true
  | .request req => !req.isSession

end Kiosk

end OmarchyKids
