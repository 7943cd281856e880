import OmarchyKids.Agentd.Persistence
import OmarchyKids.Agentd.Sessions
import OmarchyKids.Agentd.Windows

/-!
# OmarchyKids.Agentd.Warnings

Pre-warnings before a blocked window.

A tick fires the pre-warning of a session at most once and leaves a flag behind,
so a flagged session has been warned by some earlier tick (`warned_by_tick`). The
tick looks for windows that start later *today*. A window that opens on the day
of the tick, within the lead time, is therefore announced
(`warned_before_window`); one that opens just after midnight is not, because the
last ticks before it belong to the day before (`midnight_window_unannounced`).
-/

namespace OmarchyKids

open Handlers Daemon Ticker

/-! ### Windows that open today -/

/-- Between two readings of one day, the first not blocked and the second
blocked, a window of that day starts. -/
theorem window_opens {p : Platform} {config : Config} {earlier later : DateTime}
    (hdate : (p.zone.toLocal later).date = (p.zone.toLocal earlier).date)
    (htime : (p.zone.toLocal earlier).time ≤ (p.zone.toLocal later).time)
    (hopen : Budget.inBlockedWindow p config earlier = false)
    (hblocked : Budget.inBlockedWindow p config later = true) :
    ∃ w ∈ config.windowsToday (p.zone.toLocal earlier).weekday, ∃ start,
      p.parseTime w.start = some start ∧ (p.zone.toLocal earlier).time < start ∧
        start ≤ (p.zone.toLocal later).time := by
  have hweekday : (p.zone.toLocal later).weekday = (p.zone.toLocal earlier).weekday := by
    rw [NaiveDateTime.weekday, NaiveDateTime.weekday, hdate]
  unfold Budget.inBlockedWindow at hopen hblocked
  dsimp only at hopen hblocked
  rw [hweekday] at hblocked
  simp only [Bool.or_eq_false_iff, List.any_eq_false, Bool.or_eq_true, List.any_eq_true] at hopen hblocked
  rcases hblocked with ⟨w, hw, hcovers⟩ | ⟨w, hw, hcovers⟩
  · obtain ⟨start, stop, hstart, hstop, hle, hlt⟩ := Budget.coversFromStart_iff.mp hcovers
    refine ⟨w, hw, start, hstart, ?_, hle⟩
    by_contra hbefore
    -- then the window covered the earlier reading as well
    refine hopen.1 w hw (Budget.coversFromStart_iff.mpr
      ⟨start, stop, hstart, hstop, not_lt.mp hbefore, fun hsame => ?_⟩)
    exact htime.trans_lt (hlt hsame)
  · obtain ⟨start, stop, hstart, hstop, hwrap, hlt⟩ := Budget.coversUntilEndWrap_iff.mp hcovers
    exact absurd (Budget.coversUntilEndWrap_iff.mpr
      ⟨start, stop, hstart, hstop, hwrap, htime.trans_lt hlt⟩) (hopen.2 w hw)

theorem inBlockedWindow_congr {p : Platform} {c c' : Config} (h : c'.timeWindows = c.timeWindows)
    (nowLocal : DateTime) :
    Budget.inBlockedWindow p c' nowLocal = Budget.inBlockedWindow p c nowLocal := by
  unfold Budget.inBlockedWindow Config.windowsToday
  rw [h]

theorem minutesUntilNextWindowStart_le {p : Platform} {config : Config} {nowLocal : DateTime}
    {w : Window} {start : NaiveTime}
    (hw : w ∈ config.windowsToday (p.zone.toLocal nowLocal).weekday)
    (hstart : p.parseTime w.start = some start) (hlater : (p.zone.toLocal nowLocal).time < start) :
    ∃ mins, Budget.minutesUntilNextWindowStart p config nowLocal = some mins ∧
      mins ≤ (start - (p.zone.toLocal nowLocal).time) / 60000000000 := by
  unfold Budget.minutesUntilNextWindowStart
  have hmem : (start - (p.zone.toLocal nowLocal).time) / 60000000000 ∈
      (((config.windowsToday (p.zone.toLocal nowLocal).weekday).filterMap fun w =>
        p.parseTime w.start).filter ((p.zone.toLocal nowLocal).time < ·)).map
          (fun start => (start - (p.zone.toLocal nowLocal).time) / 60000000000) := by
    refine List.mem_map.mpr ⟨start, List.mem_filter.mpr ⟨?_, by simpa using hlater⟩, rfl⟩
    exact List.mem_filterMap.mpr ⟨w, hw, hstart⟩
  obtain ⟨mins, hmins⟩ := Option.isSome_iff_exists.mp (List.isSome_min?_of_mem hmem)
  exact ⟨mins, hmins, (List.min?_eq_some_iff.mp hmins).2 _ hmem⟩

theorem takeMin_le (remaining : Option Int) (value : Int) :
    ∃ least, takeMin remaining value = some least ∧ least ≤ value := by
  cases remaining with
  | none => exact ⟨value, rfl, le_refl _⟩
  | some other => exact ⟨min other value, rfl, min_le_right _ _⟩

/-- What remains is no more than the minutes to the next window. -/
theorem remainingMinutes_le {p : Platform} {env : Env} {s : State} {mins : Nat}
    (h : Budget.minutesUntilNextWindowStart p s.config env.nowLocal = some mins) (app : String) :
    ∃ remaining, remainingMinutes p env s app = some remaining ∧ remaining ≤ mins := by
  unfold remainingMinutes
  simp only [h]
  exact takeMin_le _ _

/-! ### One tick -/

/-- The pre-warning of the session under `pid` is out, and the session flagged. -/
def Fired (pid : UInt32) (session : ActiveSession) (out : State × List PreWarning) : Prop :=
  out.1.active.lookup pid = some { session with warned := true } ∧
    ∃ minutesLeft, ⟨session.app, minutesLeft⟩ ∈ out.2

theorem prewarn_config (p : Platform) (env : Env) (acc : State × List PreWarning)
    (candidate : UInt32 × String) : (prewarn p env acc candidate).1.config = acc.1.config :=
  congrArg Policy.config (prewarn_policy p env acc candidate)

theorem prewarn_sent {p : Platform} {env : Env} {acc : State × List PreWarning}
    {candidate : UInt32 × String} {warning : PreWarning} (h : warning ∈ acc.2) :
    warning ∈ (prewarn p env acc candidate).2 := by
  unfold prewarn
  dsimp only
  split
  · exact h
  · split
    · exact List.mem_append_left _ h
    · exact h

theorem prewarn_lookup_ne {p : Platform} {env : Env} {acc : State × List PreWarning}
    {candidate : UInt32 × String} {pid : UInt32} (h : pid ≠ candidate.1) :
    (prewarn p env acc candidate).1.active.lookup pid = acc.1.active.lookup pid := by
  unfold prewarn
  dsimp only
  split
  · rfl
  · split
    · dsimp only
      split
      · exact AList.lookup_insert_ne h
      · rfl
    · rfl

/-- The turn of a session leaves everything as it was or fires its warning; it
fires if what remains is within the lead time. -/
theorem prewarn_self {p : Platform} {env : Env} {acc : State × List PreWarning} {pid : UInt32}
    {session : ActiveSession} (h : acc.1.active.lookup pid = some session) :
    (prewarn p env acc (pid, session.app) = acc ∨
        Fired pid session (prewarn p env acc (pid, session.app))) ∧
      ∀ remaining, remainingMinutes p env acc.1 session.app = some remaining →
        remaining ≤ acc.1.config.preWarningMinutes.toNat →
          Fired pid session (prewarn p env acc (pid, session.app)) := by
  unfold prewarn
  dsimp only
  cases remainingMinutes p env acc.1 session.app with
  | none => exact ⟨.inl rfl, fun _ hnone => absurd hnone (by simp)⟩
  | some remaining =>
      have hfired : Fired pid session
          ({ acc.1 with active := acc.1.active.insert pid { session with warned := true } },
            acc.2 ++ [⟨session.app, UInt32.ofInt (max remaining 0)⟩]) :=
        ⟨AList.lookup_insert _, _, List.mem_append_right _ (List.mem_singleton_self _)⟩
      by_cases hle : remaining ≤ acc.1.config.preWarningMinutes.toNat
      · simp only [hle, if_true, h]
        exact ⟨.inr hfired, fun _ _ _ => hfired⟩
      · simp only [hle, if_false]
        refine ⟨.inl trivial, fun other hother hsoon => absurd hsoon ?_⟩
        rwa [← Option.some.inj hother]

theorem foldl_prewarn {p : Platform} {env : Env} (candidates : List (UInt32 × String))
    (acc : State × List PreWarning) :
    (candidates.foldl (prewarn p env) acc).1.config = acc.1.config ∧
      (∀ warning ∈ acc.2, warning ∈ (candidates.foldl (prewarn p env) acc).2) ∧
      ∀ pid, pid ∉ candidates.map Prod.fst →
        (candidates.foldl (prewarn p env) acc).1.active.lookup pid = acc.1.active.lookup pid := by
  induction candidates generalizing acc with
  | nil => exact ⟨rfl, fun _ h => h, fun _ _ => rfl⟩
  | cons candidate candidates ih =>
      obtain ⟨hconfig, hsent, hother⟩ := ih (prewarn p env acc candidate)
      refine ⟨hconfig.trans (prewarn_config p env acc candidate),
        fun warning h => hsent warning (prewarn_sent h), fun pid hpid => ?_⟩
      rw [List.map_cons, List.mem_cons, not_or] at hpid
      exact (hother pid hpid.2).trans (prewarn_lookup_ne hpid.1)

/-- In a tick that takes a session's turn, the session is left as it is or its
warning fires; it fires if a window starts within the lead time. -/
theorem foldl_prewarn_self {p : Platform} {env : Env} {candidates : List (UInt32 × String)}
    (hnodup : (candidates.map Prod.fst).Nodup) {acc : State × List PreWarning} {pid : UInt32}
    {session : ActiveSession} (hturn : (pid, session.app) ∈ candidates)
    (h : acc.1.active.lookup pid = some session) :
    let out := candidates.foldl (prewarn p env) acc
    (out.1.active.lookup pid = some session ∨ Fired pid session out) ∧
      ∀ mins, Budget.minutesUntilNextWindowStart p acc.1.config env.nowLocal = some mins →
        mins ≤ acc.1.config.preWarningMinutes.toNat → Fired pid session out := by
  -- the turns before this one and after it are those of other sessions
  obtain ⟨before, after, rfl⟩ := List.append_of_mem hturn
  rw [List.map_append, List.map_cons, List.nodup_append, List.nodup_cons] at hnodup
  obtain ⟨-, ⟨hafter, -⟩, hdisjoint⟩ := hnodup
  have hbefore : pid ∉ before.map Prod.fst := fun hin =>
    hdisjoint pid hin pid List.mem_cons_self rfl
  intro out
  simp only [out, List.foldl_append, List.foldl_cons]
  obtain ⟨hconfig₁, -, hother₁⟩ := @foldl_prewarn p env before acc
  rw [← hconfig₁]
  have hentry := (hother₁ pid hbefore).trans h
  generalize before.foldl (prewarn p env) acc = acc₁ at hentry
  obtain ⟨-, hsent₂, hother₂⟩ := @foldl_prewarn p env after (prewarn p env acc₁ (pid, session.app))
  have hfired : Fired pid session (prewarn p env acc₁ (pid, session.app)) →
      Fired pid session (after.foldl (prewarn p env) (prewarn p env acc₁ (pid, session.app))) := by
    intro hfires
    obtain ⟨hflag, minutesLeft, hsent⟩ := hfires
    exact ⟨(hother₂ pid hafter).trans hflag, minutesLeft, hsent₂ _ hsent⟩
  obtain ⟨hcases, hsoon⟩ := @prewarn_self p env acc₁ pid session hentry
  refine ⟨?_, fun mins hmins hlead => hfired ?_⟩
  · rcases hcases with hsame | hfires
    · rw [hother₂ pid hafter, hsame]
      exact .inl hentry
    · exact .inr (hfired hfires)
  · obtain ⟨remaining, hremaining, hle⟩ := remainingMinutes_le hmins session.app
    exact hsoon remaining hremaining (hle.trans (mod_cast hlead))

theorem pruneUnlocks_eq (p : Platform) (env : Env) (s : State) :
    (pruneUnlocks p env s).active = s.active ∧
      (pruneUnlocks p env s).config = s.config.pruned env.nowUtc := by
  unfold pruneUnlocks
  simp only [State.save_eq, State.render_eq]
  split
  · split <;> split <;> exact ⟨rfl, rfl⟩
  · exact ⟨rfl, rfl⟩

/-- The sessions whose turn it is in a tick. -/
theorem candidates_spec (active : ActiveMap) :
    (((active.entries.filter fun e => !e.2.warned).map fun e => (e.1, e.2.app)).map
        Prod.fst).Nodup ∧
      ∀ pid app, (pid, app) ∈
          (active.entries.filter fun e => !e.2.warned).map (fun e => (e.1, e.2.app)) ↔
        ∃ session, active.lookup pid = some session ∧ session.warned = false ∧
          session.app = app := by
  constructor
  · rw [List.map_map]
    exact active.nodupKeys.sublist List.filter_sublist
  · intro pid app
    simp only [List.mem_map, List.mem_filter, Prod.mk.injEq, Bool.not_eq_true', Sigma.exists,
      ← AList.mem_lookup_iff, Option.mem_def]
    constructor
    · intro h
      obtain ⟨_, session, ⟨hlookup, hwarned⟩, rfl, happ⟩ := h
      exact ⟨session, hlookup, hwarned, happ⟩
    · intro h
      obtain ⟨session, hlookup, hwarned, happ⟩ := h
      exact ⟨pid, session, ⟨hlookup, hwarned⟩, rfl, happ⟩

/-- A tick fires the warning of a session that has had none, or leaves the
session as it is; it fires if a window starts within the lead time. -/
theorem tick_session {p : Platform} {env : Env} {s : State} {pid : UInt32} {session : ActiveSession}
    (h : s.active.lookup pid = some session) :
    ((tick p env s).1.active.lookup pid = some session ∨
        (session.warned = false ∧ Fired pid session (tick p env s))) ∧
      (session.warned = false → ∀ mins,
        Budget.minutesUntilNextWindowStart p s.config env.nowLocal = some mins →
          mins ≤ s.config.preWarningMinutes.toNat → Fired pid session (tick p env s)) := by
  obtain ⟨hactive, hconfig⟩ := pruneUnlocks_eq p env s
  unfold tick
  dsimp only
  generalize pruneUnlocks p env s = s' at hactive hconfig
  obtain ⟨hnodup, hmem⟩ := candidates_spec s'.active
  generalize (s'.active.entries.filter fun e => !e.2.warned).map (fun e => (e.1, e.2.app)) =
    candidates at hnodup hmem
  rw [hactive] at hmem
  by_cases hturn : (pid, session.app) ∈ candidates
  · obtain ⟨session', hlookup, hunwarned, -⟩ := (hmem pid session.app).mp hturn
    obtain rfl := Option.some.inj (h.symm.trans hlookup)
    have hentry : (s', ([] : List PreWarning)).1.active.lookup pid = some session := by
      rw [hactive, h]
    obtain ⟨hcases, hsoon⟩ := @foldl_prewarn_self p env candidates hnodup _ pid session hturn hentry
    refine ⟨hcases.imp_right fun hfires => ⟨hunwarned, hfires⟩, fun _ mins hmins hlead => ?_⟩
    rw [hconfig] at hsoon
    exact hsoon mins hmins hlead
  · have hpid : pid ∉ candidates.map Prod.fst := by
      intro hin
      obtain ⟨⟨pid', app⟩, hcandidate, rfl⟩ := List.mem_map.mp hin
      obtain ⟨session', hlookup, -, happ⟩ := (hmem _ _).mp hcandidate
      obtain rfl := Option.some.inj (h.symm.trans hlookup)
      exact hturn (happ ▸ hcandidate)
    refine ⟨.inl ?_, fun hunwarned => absurd ((hmem pid session.app).mpr ⟨session, h, hunwarned, rfl⟩) hturn⟩
    rw [(@foldl_prewarn p env candidates (s', [])).2.2 pid hpid, hactive, h]

/-! ### Runs -/

/-- The tick in the state `s` warns the session under `pid`, which has had no
warning before. -/
def WarnsAt (p : Platform) (s : State) (env : Env) (pid : UInt32) (session : ActiveSession) : Prop :=
  s.active.lookup pid = some { session with warned := false } ∧ Fired pid session (tick p env s)

/-- Some tick of the run warned the session. -/
def WarnedIn (p : Platform) (s₀ : State) (events : List (Env × Event)) (pid : UInt32)
    (session : ActiveSession) : Prop :=
  ∃ before env after, events = before ++ (env, .tick) :: after ∧
    WarnsAt p (Runs.run (step p) s₀ before) env pid session

theorem WarnedIn.append {p : Platform} {s₀ : State} {events : List (Env × Event)} {pid : UInt32}
    {session : ActiveSession} (h : WarnedIn p s₀ events pid session) (later : List (Env × Event)) :
    WarnedIn p s₀ (events ++ later) pid session := by
  obtain ⟨before, env, after, rfl, hwarns⟩ := h
  exact ⟨before, env, after ++ later, by simp, hwarns⟩

/-- A session under `pid` after a step is new and not warned, or it was there
before, flag included, or the step is a tick that warns it. -/
theorem step_session {p : Platform} {s : State} {e : Env × Event} {pid : UInt32}
    {session : ActiveSession} (h : (step p s e).active.lookup pid = some session) :
    session.warned = false ∨ s.active.lookup pid = some session ∨
      (e.2 = .tick ∧ WarnsAt p s e.1 pid session) := by
  obtain ⟨env, event⟩ := e
  cases event with
  | tick =>
      have hsame := (tick_same p env s).2 pid session.app session.startedAt
      obtain ⟨warned, hbefore⟩ := hsame.mp ⟨session.warned, h⟩
      rcases (tick_session hbefore).1 with hkept | ⟨hunwarned, hflag, hsent⟩
      · exact .inr (.inl (hbefore.trans (hkept.symm.trans h)))
      · obtain rfl : warned = false := hunwarned
        exact .inr (.inr ⟨rfl, hbefore, hflag, hsent⟩)
  | request req =>
      by_cases hsession : req.isSession = true
      · cases req with
        | wrapperStart app pid' =>
            have hstart := handleWrapperStart_sessions env s app pid'
            rw [show step p s (env, .request (.wrapperStart app pid')) =
              (handleWrapperStart env s app pid').1 from rfl] at h
            split at hstart
            · rw [hstart.2] at h
              by_cases hpid : pid = pid'
              · subst hpid
                rw [AList.lookup_insert] at h
                exact .inl (by rw [← Option.some.inj h])
              · rw [AList.lookup_insert_ne hpid] at h
                exact .inr (.inl h)
            · rw [hstart.2] at h
              exact .inr (.inl h)
        | wrapperStop app pid' code =>
            rw [show (step p s (env, .request (.wrapperStop app pid' code))).active =
              s.active.erase pid' from (handleWrapperStop_sessions env s app pid').1] at h
            have hpid : pid ≠ pid' := by
              intro heq
              rw [heq, AList.lookup_erase] at h
              cases h
            rw [AList.lookup_erase_ne hpid] at h
            exact .inr (.inl h)
        | _ => cases hsession
      · refine .inr (.inl ?_)
        rw [← (dispatch_sessions p env s (Bool.eq_false_iff.mpr hsession)).2]
        exact h

/-- A flagged session was warned by some tick of the run. -/
theorem warned_by_tick {p : Platform} {s₀ : State} (hfresh : s₀.active = ∅)
    (events : List (Env × Event)) {pid : UInt32} {session : ActiveSession}
    (h : (Runs.run (step p) s₀ events).active.lookup pid = some session)
    (hwarned : session.warned = true) : WarnedIn p s₀ events pid session := by
  have hinv := @Runs.run_history _ _ (step p)
    (fun past s => s = Runs.run (step p) s₀ past ∧ ∀ pid session,
      s.active.lookup pid = some session → session.warned = true → WarnedIn p s₀ past pid session)
    s₀ ⟨rfl, fun pid session hlookup => ?_⟩ ?_ events
  · exact hinv.2 pid session h hwarned
  · rw [hfresh] at hlookup
    cases hlookup
  · intro past s e hpast
    obtain ⟨rfl, hpast⟩ := hpast
    refine ⟨(Runs.run_concat s₀ past e).symm, fun pid session hlookup hflag => ?_⟩
    rcases step_session hlookup with hnew | hkept | ⟨htick, hwarns⟩
    · exact absurd hnew (by simp [hflag])
    · exact (hpast pid session hkept hflag).append [e]
    · obtain ⟨env, event⟩ := e
      obtain rfl : event = .tick := htick
      exact ⟨past, env, [], rfl, hwarns⟩

/-! ### Announced windows -/

/-- `check_allowed`'s answer inside a blocked window. -/
def windowRefusal : AllowedPayload := ⟨false, some "currently inside a blocked time window"⟩

theorem inBlockedWindow_of_refusal {p : Platform} {env : Env} {s : State} {app : String}
    (h : checkAllowed p env s app = windowRefusal) :
    Budget.inBlockedWindow p s.config env.nowLocal = true := by
  by_contra hopen
  have hreason := congrArg AllowedPayload.reason h
  unfold checkAllowed windowRefusal at hreason
  simp only [Bool.eq_false_iff.mpr hopen, Bool.false_eq_true, if_false] at hreason
  split at hreason
  · exact absurd (Option.some.inj hreason) (by decide)
  · split at hreason
    · exact absurd (Option.some.inj hreason) (by decide)
    · split at hreason
      · exact absurd (Option.some.inj hreason) (by decide)
      · cases hreason

/-- The wall clock shows the same day at both instants, and at the later one at
most `lead` minutes more. -/
def SameDayWithin (zone : Zone) (lead : Nat) (earlier later : DateTime) : Prop :=
  (zone.toLocal later).date = (zone.toLocal earlier).date ∧
    (zone.toLocal earlier).time ≤ (zone.toLocal later).time ∧
    (zone.toLocal later).time - (zone.toLocal earlier).time ≤ lead * 60000000000

instance (zone : Zone) (lead : Nat) (earlier later : DateTime) :
    Decidable (SameDayWithin zone lead earlier later) :=
  inferInstanceAs (Decidable (_ ∧ _ ∧ _))

/-- A window refuses an app at an instant. If on the same day, by the wall clock
within the lead time before, a tick met a session outside all windows, then that
tick or an earlier one has warned the session. -/
theorem warned_before_window {p : Platform} {s₀ : State} (hfresh : s₀.active = ∅)
    {before after : List (Env × Event)} {env : Env} {pid : UInt32} {session : ActiveSession}
    (hactive : (Runs.run (step p) s₀ before).active.lookup pid = some session)
    (hopen : Budget.inBlockedWindow p (Runs.run (step p) s₀ before).config env.nowLocal = false)
    {now : Env}
    (hsoon : SameDayWithin p.zone (Runs.run (step p) s₀ before).config.preWarningMinutes.toNat
      env.nowLocal now.nowLocal)
    (hrefused : checkAllowed p now (Runs.run (step p) s₀ (before ++ (env, .tick) :: after))
      session.app = windowRefusal) :
    WarnedIn p s₀ (before ++ [(env, .tick)]) pid session := by
  cases hwarned : session.warned with
  | true => exact (warned_by_tick hfresh before hactive hwarned).append _
  | false =>
      obtain ⟨hdate, htime, hlead⟩ := hsoon
      -- no step touches the windows
      have hsections : (Runs.run (step p) s₀ (before ++ (env, .tick) :: after)).config.sections =
          (Runs.run (step p) s₀ before).config.sections := by
        rw [Runs.run_append]
        exact Runs.run_invariant
          (I := fun s : State => s.config.sections = (Runs.run (step p) s₀ before).config.sections)
          rfl (fun s e h => (step_sections_configFile p s e.1 e.2).1.trans h) _
      have hblocked := inBlockedWindow_of_refusal hrefused
      rw [inBlockedWindow_congr (congrArg Sections.timeWindows hsections)] at hblocked
      obtain ⟨w, hw, start, hstart, hlater, hle⟩ := window_opens hdate htime hopen hblocked
      obtain ⟨mins, hmins, hminsle⟩ := minutesUntilNextWindowStart_le hw hstart hlater
      have hminutes : mins ≤ (Runs.run (step p) s₀ before).config.preWarningMinutes.toNat := by
        refine hminsle.trans (Nat.div_le_of_le_mul ?_)
        rw [mul_comm]
        exact (Nat.sub_le_sub_right hle _).trans hlead
      have hunflagged : { session with warned := false } = session := by
        rw [← hwarned]
      refine ⟨before, env, [], rfl, ?_, (tick_session hactive).2 hwarned mins hmins hminutes⟩
      rw [hunflagged]
      exact hactive

/-! ### A window in the evening, and one at midnight -/

/-- On Tuesdays a window lasts until seven; the puzzles belong to the tier. -/
def tuesdayState (start : String) : State where
  config := { Config.defaultForTier "mini" with
    timeWindows := [("tue", [⟨start, "07:00"⟩])]
    apps := { base := [⟨"org.kde.gcompris", "GCompris", "gcompris", "#94A3B8"⟩] } }
  configFile := none
  launcherApps := none

/-- So many seconds after midnight on Tuesday, 2026-09-01. -/
def tuesdayAt (seconds : Int) : Env where
  nowUtc := 1788220800000000000 + seconds * 1000000000
  nowLocal := 1788220800000000000 + seconds * 1000000000

def startPuzzles : Event := .request (.wrapperStart "org.kde.gcompris" 41)

theorem warned_before_window_evening :
    WarnedIn clockPlatform (tuesdayState "20:00")
      ([(tuesdayAt 71940, startPuzzles)] ++ [(tuesdayAt 71970, .tick)]) 41
      { app := "org.kde.gcompris", startedAt := (tuesdayAt 71940).nowUtc } :=
  @warned_before_window clockPlatform (tuesdayState "20:00") rfl [(tuesdayAt 71940, startPuzzles)] []
    (tuesdayAt 71970) 41 { app := "org.kde.gcompris", startedAt := (tuesdayAt 71940).nowUtc }
    (by decide +kernel) (by decide +kernel) (tuesdayAt 72000) (by decide +kernel) (by decide +kernel)

/-- The puzzles run from a minute before midnight on; a tick half a minute later. -/
def untilMidnight : List (Env × Event) :=
  [(tuesdayAt (-60), startPuzzles), (tuesdayAt (-30), .tick)]

/-- The ticks of the last minute before midnight look for windows on Monday, and
the one that opens at midnight goes unannounced. -/
theorem midnight_window_unannounced :
    ¬ ∀ (p : Platform) (s₀ : State) (before after : List (Env × Event)) (env now : Env)
      (pid : UInt32) (session : ActiveSession),
      s₀.active = ∅ → (Runs.run (step p) s₀ before).active.lookup pid = some session →
      let lead := (Runs.run (step p) s₀ before).config.preWarningMinutes.toNat
      let s := Runs.run (step p) s₀ (before ++ (env, .tick) :: after)
      1 ≤ lead → env.nowLocal ≤ now.nowLocal → now.nowLocal ≤ env.nowLocal + minutesDelta lead →
      (∀ t, env.nowLocal ≤ t → t < now.nowLocal → Budget.inBlockedWindow p s.config t = false) →
      checkAllowed p now s session.app = windowRefusal →
      WarnedIn p s₀ (before ++ (env, .tick) :: after) pid session := by
  intro h
  have hwarned := h clockPlatform (tuesdayState "00:00") untilMidnight [] (tuesdayAt (-10))
    (tuesdayAt 0) 41 { app := "org.kde.gcompris", startedAt := (tuesdayAt (-60)).nowUtc }
    rfl (by decide +kernel) (by decide +kernel) (by decide) (by decide +kernel) ?_
    (by decide +kernel)
  · obtain ⟨before, env, after, hsplit, -, -, minutesLeft, hsent⟩ := hwarned
    have hsilent : (tick clockPlatform (tuesdayAt (-30))
          (Runs.run (step clockPlatform) (tuesdayState "00:00") (untilMidnight.take 1))).2 = [] ∧
        (tick clockPlatform (tuesdayAt (-10))
          (Runs.run (step clockPlatform) (tuesdayState "00:00") untilMidnight)).2 = [] := by
      decide +kernel
    match before with
    | [] => cases hsplit
    | [_] =>
        cases hsplit
        exact List.eq_nil_iff_forall_not_mem.mp hsilent.1 _ hsent
    | [_, _] =>
        cases hsplit
        exact List.eq_nil_iff_forall_not_mem.mp hsilent.2 _ hsent
    | _ :: _ :: _ :: _ => simp [untilMidnight] at hsplit
  · intro t hfrom hto
    have hmonday : ∀ t : Int, 1788220790000000000 ≤ t → t < 1788220800000000000 →
        t / 86400000000000 = 20696 := by
      intro t hfrom hto
      omega
    refine (inBlockedWindow_congr (show _ = (tuesdayState "00:00").config.timeWindows from rfl) t).trans ?_
    unfold Budget.inBlockedWindow
    rw [show clockPlatform.zone.toLocal t = ⟨t / 86400000000000, (t % 86400000000000).toNat⟩ from rfl,
      hmonday t hfrom hto]
    rfl

end OmarchyKids
