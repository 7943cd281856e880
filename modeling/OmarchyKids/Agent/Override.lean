import OmarchyKids.Agent.Main
import OmarchyKids.Agentd.AuditTrail
import OmarchyKids.Kiosk.System

/-!
# OmarchyKids.Agent.Override

The emergency unlock at the child's own computer: `omarchy-kids-agent override` starts
`pkexec`, which asks for the parent's password and then runs the override helper, which
asks the daemon. If anything on this way fails, the agent tells the daemon that it did.

An attempt is a machine like a wrapper's (`OmarchyKids.Kiosk.System`); any number of them
runs beside whatever else the daemon hears. An attempt sends one message or two, and each
leaves one row at most, so the parent can read off the log how every single attempt ended
(`attempts_leave_traces`).
-/

namespace OmarchyKids

open Handlers Daemon

namespace Agent

/-! ### The command line -/

/-- What `run_override` reads from its environment. -/
structure Vars where
  home : Option String
  runtimeDir : Option String
  user : Option String
  logname : Option String

/-- A variable that has to be set. -/
def required (message : String) : Option String → Except String String
  | some value => .ok value
  | none => .error message

def overrideHelperPath : String := "/usr/lib/omarchy-kids/omarchy-kids-override-helper"

/-- The helper's command line; it is told where home and socket are, for `pkexec` hands on
no environment. -/
def helperCommand (app home runtimeDir : String) (minutes : Option UInt32) : List String :=
  [overrideHelperPath, app, "--home", home, "--runtime-dir", runtimeDir] ++
    minutes.elim [] fun m => ["--minutes", toString m.toNat]

/-- The command line of `pkexec`. -/
def overrideCommand (vars : Vars) (app : String) (minutes : Option UInt32) :
    Except String (List String) := do
  let home ← required "HOME is not set" vars.home
  let runtimeDir ← required "XDG_RUNTIME_DIR is not set" vars.runtimeDir
  let username ← required "cannot determine the current user (USER/LOGNAME unset)"
    (vars.user <|> vars.logname)
  return ["pkexec", "--user", username] ++ helperCommand app home runtimeDir minutes

theorem required_ok {message value : String} {v : Option String}
    (h : required message v = .ok value) : v = some value := by
  cases v with
  | none => cases h
  | some w => rw [Except.ok.inj h]

theorem overrideCommand_ok {vars : Vars} {app : String} {minutes : Option UInt32}
    {command : List String} (h : overrideCommand vars app minutes = .ok command) :
    ∃ home dir username, vars.home = some home ∧ vars.runtimeDir = some dir ∧
      command = ["pkexec", "--user", username] ++ helperCommand app home dir minutes := by
  unfold overrideCommand at h
  cases hhome : required "HOME is not set" vars.home with
  | error message =>
      rw [hhome] at h
      cases h
  | ok home =>
      cases hdir : required "XDG_RUNTIME_DIR is not set" vars.runtimeDir with
      | error message =>
          rw [hhome, hdir] at h
          cases h
      | ok dir =>
          rw [hhome, hdir] at h
          cases huser : required "cannot determine the current user (USER/LOGNAME unset)"
            (vars.user <|> vars.logname) with
          | error message =>
              rw [huser] at h
              cases h
          | ok username =>
              rw [huser] at h
              exact ⟨home, dir, username, required_ok hhome, required_ok hdir,
                (Except.ok.inj h).symm⟩

/-- `pkexec --user NAME PROGRAM ARGUMENTS…` runs the program with these arguments. -/
def pkexecTarget (command : List String) : List String := command.drop 3

end Agent

namespace OverrideHelper

structure Cli where
  app : String
  minutes : Option UInt32
  home : String
  runtimeDir : String

/-- No option to a command line parser. -/
def Plain (arg : String) : Prop := arg.toList.head? ≠ some '-'

/-- What is expected of `Cli::parse`: three plain values, each where it belongs, are read as
they are. The other outcome is the exit code of a process that ends at once. -/
def Reads (parse : List String → Except Int Cli) : Prop :=
  ∀ app home runtimeDir minutes, Plain app → Plain home → Plain runtimeDir →
    parse (Agent.helperCommand app home runtimeDir minutes) = .ok ⟨app, minutes, home, runtimeDir⟩

/-- The exit code of `main`. -/
def exitCode : Except SendError Response → Int
  | .ok resp => if resp.ok then 0 else 1
  | .error _ => 1

end OverrideHelper

namespace Override

/-! ### One attempt -/

/-- How the question for the password ends. -/
inductive Prompt
  /-- `pkexec` could not be run. -/
  | unspawned (e : String)
  /-- It ends without having run the helper: 126 and 127 are its codes for that. -/
  | refused (code : Option Int)
  | authorised

inductive Outcome
  | unlocked
  /-- With the status that `pkexec` ended with. -/
  | denied (code : Option Int)
  /-- The question was never put. -/
  | failed (message : String)

inductive Phase
  | prompting (command : List String)
  | helping (cli : OverrideHelper.Cli)
  | reporting (code : Option Int)
  | done (outcome : Outcome)

/-- A process of `omarchy-kids-agent override`, with what it has started. -/
structure Attempt where
  app : String
  minutes : Option UInt32
  phase : Phase

/-- `{:?}` of an exit code. -/
def codeText : Option Int → String
  | some code => "Some(" ++ toString code ++ ")"
  | none => "None"

/-- What the agent leaves behind, once it has ended. -/
def Attempt.exit (a : Attempt) : Option Agent.Exit :=
  match a.phase with
  | .done .unlocked =>
      some (Agent.exitWith ("Unlocked '" ++ a.app ++ "' via override.\n", .ok ()))
  | .done (.denied code) =>
      some (Agent.exitWith ("", .error
        ("override authentication failed or was cancelled (pkexec exit " ++ codeText code ++ ")")))
  | .done (.failed message) => some (Agent.exitWith ("", .error message))
  | _ => none

/-- The beginning. -/
def Attempt.begin (vars : Agent.Vars) (app : String) (minutes : Option UInt32) : Attempt :=
  match Agent.overrideCommand vars app minutes with
  | .ok command => ⟨app, minutes, .prompting command⟩
  | .error message => ⟨app, minutes, .done (.failed message)⟩

/-- The request a turn sends. -/
def Attempt.asks (a : Attempt) : Option Request :=
  match a.phase with
  | .helping cli => some (.override cli.app cli.minutes)
  | .reporting _ => some (.overrideFailed a.app)
  | _ => none

/-- `pkexec` has ended, with its own code or the helper's. -/
def ended (code : Option Int) : Phase :=
  if code = some 0 then .done .unlocked else .reporting code

section

variable (parse : List String → Except Int OverrideHelper.Cli)

/-- One turn; `answer` is what the daemon answers, if it is asked. -/
def Attempt.act (a : Attempt) (prompt : Prompt) (answer : Except SendError Response) : Phase :=
  match a.phase with
  | .prompting command =>
      match prompt with
      | .unspawned e => .done (.failed ("failed to run pkexec: " ++ e))
      | .refused code => ended code
      | .authorised =>
          match parse (Agent.pkexecTarget command) with
          | .ok cli => .helping cli
          | .error code => ended (some code)
  | .helping _ => ended (some (OverrideHelper.exitCode answer))
  -- whether the daemon has taken note is not looked at
  | .reporting code => .done (.denied code)
  | .done outcome => .done outcome

end

/-! ### Any number of them -/

structure Desk where
  daemon : State
  attempts : List Attempt := []

inductive Move
  /-- A tick, or a request that no attempt sent. -/
  | daemon (env : Env) (e : Daemon.Event)
  | begin (vars : Agent.Vars) (app : String) (minutes : Option UInt32)
  /-- A turn of the `i`th attempt; `env` is what the daemon meets if it is asked. -/
  | turn (i : Nat) (prompt : Prompt) (env : Env) (fate : Fate)

namespace Desk

/-- The event at the daemon in a move, if there is one. -/
def heard (d : Desk) : Move → Option (Env × Daemon.Event)
  | .daemon env e => some (env, e)
  | .begin .. => none
  | .turn i _ env fate =>
      if fate.served then
        (d.attempts[i]?.bind Attempt.asks).map fun req => (env, .request req)
      else none

section

variable (parse : List String → Except Int OverrideHelper.Cli) (p : Platform)

/-- An attempt after a turn of its own. -/
def advance (daemon : State) (prompt : Prompt) (env : Env) (fate : Fate) (a : Attempt) : Attempt :=
  { a with phase := a.act parse prompt <|
      match a.asks with
      | some req => Kiosk.answer p env daemon req fate
      | none => .error .noResponse }

/-- The attempts after a move. -/
def proceed (d : Desk) : Move → List Attempt
  | .daemon _ _ => d.attempts
  | .begin vars app minutes => d.attempts ++ [.begin vars app minutes]
  | .turn i prompt env fate => d.attempts.modify i (advance parse p d.daemon prompt env fate)

def step (d : Desk) (m : Move) : Desk where
  daemon := Runs.run (Daemon.step p) d.daemon (d.heard m).toList
  attempts := d.proceed parse p m

/-- The desk after these moves. -/
def run (d : Desk) (moves : List Move) : Desk := Runs.run (step parse p) d moves

theorem run_concat (d : Desk) (moves : List Move) (m : Move) :
    run parse p d (moves ++ [m]) = step parse p (run parse p d moves) m :=
  Runs.run_concat _ _ _

end

end Desk

/-! ### What a turn does -/

/-- What the agent and its helper have been told of the attempt. -/
def Attempt.Sound (parse : List String → Except Int OverrideHelper.Cli) (a : Attempt) : Prop :=
  match a.phase with
  | .prompting command =>
      ∃ cli, parse (Agent.pkexecTarget command) = .ok cli ∧ cli.app = a.app ∧
        cli.minutes = a.minutes
  | .helping cli => cli.app = a.app ∧ cli.minutes = a.minutes
  | _ => True

/-- No value among those of the command line looks like an option. -/
structure PlainArgs (vars : Agent.Vars) (app : String) : Prop where
  app : OverrideHelper.Plain app
  home : ∀ home, vars.home = some home → OverrideHelper.Plain home
  runtimeDir : ∀ dir, vars.runtimeDir = some dir → OverrideHelper.Plain dir

/-- What the child typed arrives in the helper. -/
theorem begin_sound {parse : List String → Except Int OverrideHelper.Cli}
    (hparse : OverrideHelper.Reads parse) {vars : Agent.Vars} {app : String}
    (hplain : PlainArgs vars app) (minutes : Option UInt32) :
    (Attempt.begin vars app minutes).Sound parse := by
  unfold Attempt.begin
  cases h : Agent.overrideCommand vars app minutes with
  | error message => trivial
  | ok command =>
      obtain ⟨home, dir, username, hhome, hdir, rfl⟩ := Agent.overrideCommand_ok h
      exact ⟨_, hparse app home dir minutes hplain.app (hplain.home home hhome)
        (hplain.runtimeDir dir hdir), rfl, rfl⟩

/-- The unlock an attempt has reported, as the parent should find it. -/
def Attempt.unlocked (a : Attempt) : Option (String × UInt32) :=
  match a.phase with
  | .done .unlocked => some (a.app, a.minutes.getD defaultUnlockMinutes)
  | _ => none

/-- The app of an attempt that has been denied. -/
def Attempt.denied (a : Attempt) : Option String :=
  match a.phase with
  | .done (.denied _) => some a.app
  | _ => none

/-- An attempt says that it has unlocked the app exactly if its exit code is that of success. -/
theorem unlocked_iff_exit {a : Attempt} {exit : Agent.Exit} (h : a.exit = some exit) :
    a.unlocked.isSome = true ↔ exit.code = 0 := by
  unfold Attempt.exit at h
  unfold Attempt.unlocked
  split at h
  · obtain rfl := Option.some.inj h
    simp [*, Agent.exitWith]
  · obtain rfl := Option.some.inj h
    simp [*, Agent.exitWith]
  · obtain rfl := Option.some.inj h
    simp [*, Agent.exitWith]
  · cases h

/-- A turn asks for the override, tells of the failure, or sends nothing and decides
nothing. -/
theorem advance_cases {parse : List String → Except Int OverrideHelper.Cli} (p : Platform)
    (daemon : State) {prompt : Prompt} (env : Env) {a : Attempt} (hsound : a.Sound parse)
    (hprompt : prompt ≠ .refused (some 0)) :
    let a' := Desk.advance parse p daemon prompt env .answered a
    a'.Sound parse ∧
      ((a.asks = some (.override a.app a.minutes) ∧ a.unlocked = none ∧ a.denied = none ∧
          a'.denied = none ∧ a'.unlocked =
            if (dispatch p env daemon (.override a.app a.minutes)).2.ok then
              some (a.app, a.minutes.getD defaultUnlockMinutes) else none) ∨
        (a.asks = some (.overrideFailed a.app) ∧ a.unlocked = none ∧ a.denied = none ∧
          a'.unlocked = none ∧ a'.denied = some a.app) ∨
        (a.asks = none ∧ a'.unlocked = a.unlocked ∧ a'.denied = a.denied)) := by
  intro a'
  obtain ⟨app, minutes, phase⟩ := a
  cases phase with
  | prompting command =>
      obtain ⟨cli, hcli, happ, hminutes⟩ := hsound
      cases prompt with
      | unspawned e => exact ⟨trivial, .inr (.inr ⟨rfl, rfl, rfl⟩)⟩
      | refused code =>
          have hcode : code ≠ some 0 := by
            rintro rfl
            exact hprompt rfl
          have ha' : a' = ⟨app, minutes, .reporting code⟩ := by
            show (⟨app, minutes, ended code⟩ : Attempt) = _
            rw [ended, if_neg hcode]
          rw [ha']
          exact ⟨trivial, .inr (.inr ⟨rfl, rfl, rfl⟩)⟩
      | authorised =>
          have ha' : a' = ⟨app, minutes, .helping cli⟩ := by
            simp [a', Desk.advance, Attempt.act, hcli]
          rw [ha']
          exact ⟨⟨happ, hminutes⟩, .inr (.inr ⟨rfl, rfl, rfl⟩)⟩
  | helping cli =>
      obtain ⟨rfl, rfl⟩ := hsound
      have ha' : a' = ⟨cli.app, cli.minutes, ended (some (OverrideHelper.exitCode
          (.ok (dispatch p env daemon (.override cli.app cli.minutes)).2)))⟩ := rfl
      rw [ha', OverrideHelper.exitCode]
      cases (dispatch p env daemon (.override cli.app cli.minutes)).2.ok with
      | true => exact ⟨trivial, .inl ⟨rfl, rfl, rfl, rfl, rfl⟩⟩
      | false => exact ⟨trivial, .inl ⟨rfl, rfl, rfl, rfl, rfl⟩⟩
  | reporting code => exact ⟨trivial, .inr (.inl ⟨rfl, rfl, rfl, rfl, rfl⟩)⟩
  | done outcome => exact ⟨trivial, .inr (.inr ⟨rfl, rfl, rfl⟩)⟩

/-! ### What the daemon writes down -/

def isFailure (r : SecurityEvent) : Bool := r.eventType == "override_failed"

/-- A request that is neither of an attempt's two. -/
def Foreign : Request → Prop
  | .override .. | .overrideFailed _ => False
  | _ => True

theorem foreign_logs (p : Platform) (s : State) {env : Env} {e : Daemon.Event}
    (h : ∀ req, e = .request req → Foreign req) :
    overridesLogged p (env, e) = [] ∧ (eventsLogged s (env, e)).filter isFailure = [] := by
  cases e with
  | tick => simp [overridesLogged, overrideRow, eventsLogged]
  | request req =>
      have hreq := h req rfl
      cases req with
      | override | overrideFailed => cases hreq
      | wrapperStart app pid =>
          refine ⟨by simp [overridesLogged, overrideRow], ?_⟩
          unfold eventsLogged
          split
          · dsimp only
            split <;> simp [isFailure]
          · rfl
      | _ => simp [overridesLogged, overrideRow, eventsLogged]

/-- An override has its row exactly if the daemon's answer is a yes. -/
theorem override_logs (p : Platform) (s : State) {env : Env} (app : String)
    (minutes : Option UInt32) (hsql : env.sql .insertPinOverride = none) :
    overridesLogged p (env, .request (.override app minutes)) =
        (if (dispatch p env s (.override app minutes)).2.ok then
          [⟨env.nowUtc, app, minutes.getD defaultUnlockMinutes⟩] else []) ∧
      eventsLogged s (env, .request (.override app minutes)) = [] := by
  have hok : (dispatch p env s (.override app minutes)).2.ok = env.publishes p :=
    (handleUnlock_policy p env s app minutes true).2
  refine ⟨?_, by simp [eventsLogged]⟩
  rw [overridesLogged, hok]
  simp [hsql, overrideRow]

theorem failure_logs (p : Platform) (s : State) {env : Env} (app : String)
    (hsql : env.sql .insertSecurityEvent = none) :
    overridesLogged p (env, .request (.overrideFailed app)) = [] ∧
      eventsLogged s (env, .request (.overrideFailed app)) =
        [⟨env.nowUtc, "override_failed", failureSeverity env s.db app, some app⟩] := by
  refine ⟨by simp [overridesLogged, overrideRow], ?_⟩
  rw [eventsLogged, if_pos hsql]

/-! ### Over a run -/

/-- A list of which one element has come to show something. -/
theorem filterMap_modify {α β : Type} {t : α → Option β} {f : α → α} {l : List α} {i : Nat} {a : α}
    (hi : l[i]? = some a) (ha : t a = none) :
    ((l.modify i f).filterMap t).Perm (l.filterMap t ++ (t (f a)).toList) := by
  induction l generalizing i with
  | nil => simp at hi
  | cons x l ih =>
      cases i with
      | zero =>
          obtain rfl : x = a := by simpa using hi
          rw [List.modify_zero_cons, List.filterMap_cons, List.filterMap_cons, ha]
          cases t (f x) with
          | none => simp
          | some b => exact (List.perm_append_singleton b _).symm
      | succ i =>
          have ih := ih (by simpa using hi)
          rw [List.modify_succ_cons, List.filterMap_cons, List.filterMap_cons]
          cases t x with
          | none => exact ih
          | some b => exact ih.cons b

theorem filterMap_modify_same {α β : Type} {t : α → Option β} {f : α → α} {l : List α} {i : Nat}
    (h : ∀ a, l[i]? = some a → t (f a) = t a) : (l.modify i f).filterMap t = l.filterMap t := by
  induction l generalizing i with
  | nil => simp
  | cons x l ih =>
      cases i with
      | zero => rw [List.modify_zero_cons, List.filterMap_cons, List.filterMap_cons, h x rfl]
      | succ i =>
          rw [List.modify_succ_cons, List.filterMap_cons, List.filterMap_cons,
            ih fun a ha => h a (by simpa using ha)]

/-- Only attempts speak of overrides, their values are plain, and what they send is served
and answered by a daemon whose log works. `pkexec` does not claim to have run the helper
when it has not. -/
def Regular : Move → Prop
  | .daemon _ e => ∀ req, e = .request req → Foreign req
  | .begin vars app _ => PlainArgs vars app
  | .turn _ prompt env fate =>
      prompt ≠ .refused (some 0) ∧ fate = .answered ∧ env.sql .insertPinOverride = none ∧
        env.sql .insertSecurityEvent = none

/-- The log and the attempts agree. -/
structure Traced (parse : List String → Except Int OverrideHelper.Cli) (s₀ : State) (d : Desk) :
    Prop where
  sound : ∀ a ∈ d.attempts, a.Sound parse
  unlocked : ∃ rows, d.daemon.db.pinOverrides = s₀.db.pinOverrides ++ rows ∧
    (rows.map fun r => (r.appId, r.minutes)).Perm (d.attempts.filterMap Attempt.unlocked)
  denied : ∃ rows, d.daemon.db.securityEvents = s₀.db.securityEvents ++ rows ∧
    ((rows.filter isFailure).map SecurityEvent.detail).Perm
      ((d.attempts.filterMap Attempt.denied).map some)

namespace Traced

variable {parse : List String → Except Int OverrideHelper.Cli} {s₀ : State} {d d' : Desk}

/-- More rows, and the same more on the attempts' side. -/
theorem extend (h : Traced parse s₀ d) (hsound : ∀ a ∈ d'.attempts, a.Sound parse)
    {overrides : List PinOverride} {events : List SecurityEvent}
    (hoverrides : d'.daemon.db.pinOverrides = d.daemon.db.pinOverrides ++ overrides)
    (hevents : d'.daemon.db.securityEvents = d.daemon.db.securityEvents ++ events)
    (hunlocked : (d'.attempts.filterMap Attempt.unlocked).Perm
      (d.attempts.filterMap Attempt.unlocked ++ overrides.map fun r => (r.appId, r.minutes)))
    (hdenied : ((d'.attempts.filterMap Attempt.denied).map some).Perm
      ((d.attempts.filterMap Attempt.denied).map some ++
        (events.filter isFailure).map SecurityEvent.detail)) : Traced parse s₀ d' := by
  obtain ⟨rows, hrows, hperm⟩ := h.unlocked
  obtain ⟨rows', hrows', hperm'⟩ := h.denied
  refine ⟨hsound, ⟨rows ++ overrides, ?_, ?_⟩, ⟨rows' ++ events, ?_, ?_⟩⟩
  · rw [hoverrides, hrows, List.append_assoc]
  · rw [List.map_append]
    exact (hperm.append_right _).trans hunlocked.symm
  · rw [hevents, hrows', List.append_assoc]
  · rw [List.filter_append, List.map_append]
    exact (hperm'.append_right _).trans hdenied.symm

theorem step_turn {p : Platform} {i : Nat} {prompt : Prompt} {env : Env} {a : Attempt}
    (h : Traced parse s₀ d) (ha : d.attempts[i]? = some a) (hprompt : prompt ≠ .refused (some 0))
    (hoverride : env.sql .insertPinOverride = none)
    (hevent : env.sql .insertSecurityEvent = none) :
    Traced parse s₀ (d.step parse p (.turn i prompt env .answered)) := by
  obtain ⟨hsound', hcases⟩ := advance_cases p d.daemon env (h.sound a (List.mem_of_getElem? ha))
    hprompt
  generalize ha' : Desk.advance parse p d.daemon prompt env .answered a = a' at hsound' hcases
  have hsound : ∀ b ∈ (d.step parse p (.turn i prompt env .answered)).attempts, b.Sound parse := by
    intro b hb
    obtain ⟨j, hj⟩ := List.mem_iff_getElem?.mp hb
    rw [Desk.step, Desk.proceed, List.getElem?_modify] at hj
    obtain ⟨c, hc, rfl⟩ := Option.map_eq_some_iff.mp hj
    by_cases hij : i = j
    · subst hij
      obtain rfl : a = c := Option.some.inj (ha.symm.trans hc)
      rwa [if_pos rfl, ha']
    · rw [if_neg hij]
      exact h.sound c (List.mem_of_getElem? hc)
  have hheard : d.heard (.turn i prompt env .answered) =
      a.asks.map fun req => (env, .request req) := by
    rw [Desk.heard, if_pos (show Fate.answered.served = true from rfl), ha, Option.bind_some]
  rcases hcases with ⟨hasks, hunlocked, hdenied, hdenied', hunlocked'⟩ |
      ⟨hasks, hunlocked, hdenied, hunlocked', hdenied'⟩ | ⟨hasks, hunlocked', hdenied'⟩
  · obtain ⟨hrows, hevents⟩ := override_logs p d.daemon a.app a.minutes hoverride
    obtain ⟨hlog, hlog'⟩ := step_logs p d.daemon (env, .request (.override a.app a.minutes))
    rw [hasks, Option.map_some] at hheard
    refine h.extend hsound (by rw [Desk.step, hheard]; exact hlog)
      (by rw [Desk.step, hheard]; exact hlog') ?_ ?_
    · refine (filterMap_modify ha hunlocked).trans ?_
      rw [ha', hunlocked', hrows]
      split <;> simp
    · rw [hevents, List.filter_nil, List.map_nil, List.append_nil]
      refine ((filterMap_modify ha hdenied).trans ?_).map some
      rw [ha', hdenied', Option.toList_none, List.append_nil]
  · obtain ⟨hrows, hevents⟩ := failure_logs p d.daemon a.app hevent
    obtain ⟨hlog, hlog'⟩ := step_logs p d.daemon (env, .request (.overrideFailed a.app))
    rw [hasks, Option.map_some] at hheard
    refine h.extend hsound (by rw [Desk.step, hheard]; exact hlog)
      (by rw [Desk.step, hheard]; exact hlog') ?_ ?_
    · refine (filterMap_modify ha hunlocked).trans ?_
      rw [ha', hunlocked', hrows, Option.toList_none, List.map_nil]
    · refine ((filterMap_modify ha hdenied).map some).trans ?_
      rw [ha', hdenied', hevents, List.map_append]
      rfl
  · rw [hasks, Option.map_none] at hheard
    refine h.extend hsound (by rw [Desk.step, hheard]; exact (List.append_nil _).symm)
      (by rw [Desk.step, hheard]; exact (List.append_nil _).symm) ?_ ?_
    · rw [Desk.step, Desk.proceed, filterMap_modify_same, List.map_nil, List.append_nil]
      intro b hb
      obtain rfl : a = b := Option.some.inj (ha.symm.trans hb)
      rw [ha', hunlocked']
    · rw [Desk.step, Desk.proceed, filterMap_modify_same, List.filter_nil, List.map_nil,
        List.append_nil]
      intro b hb
      obtain rfl : a = b := Option.some.inj (ha.symm.trans hb)
      rw [ha', hdenied']

theorem step {p : Platform} {m : Move} (hparse : OverrideHelper.Reads parse) (h : Traced parse s₀ d)
    (hm : Regular m) : Traced parse s₀ (d.step parse p m) := by
  cases m with
  | daemon env e =>
      obtain ⟨hrows, hevents⟩ := foreign_logs p d.daemon hm
      obtain ⟨hlog, hlog'⟩ := step_logs p d.daemon (env, e)
      refine h.extend h.sound hlog hlog' ?_ ?_
      · rw [hrows, List.map_nil, List.append_nil]
        rfl
      · rw [hevents, List.map_nil, List.append_nil]
        rfl
  | begin vars app minutes =>
      have hnothing : (Attempt.begin vars app minutes).unlocked = none ∧
          (Attempt.begin vars app minutes).denied = none := by
        unfold Attempt.begin
        split <;> exact ⟨rfl, rfl⟩
      refine h.extend (fun a ha => ?_) (List.append_nil _).symm (List.append_nil _).symm ?_ ?_
      · rcases List.mem_append.mp ha with hold | hnew
        · exact h.sound a hold
        · rw [List.mem_singleton.mp hnew]
          exact begin_sound hparse hm minutes
      · rw [Desk.step, Desk.proceed, List.filterMap_append]
        simp [hnothing.1]
      · rw [Desk.step, Desk.proceed, List.filterMap_append]
        simp [hnothing.2]
  | turn i prompt env fate =>
      obtain ⟨hprompt, rfl, hoverride, hevent⟩ := hm
      cases ha : d.attempts[i]? with
      | some a => exact h.step_turn ha hprompt hoverride hevent
      | none =>
          have hsame : d.step parse p (.turn i prompt env .answered) = d := by
            rw [Desk.step, Desk.heard, ha, Desk.proceed,
              List.modify_eq_self (List.getElem?_eq_none_iff.mp ha)]
            rfl
          rwa [hsame]

end Traced

/-! ### Who has granted it -/

/-- The helper runs, or has unlocked the app. -/
def Attempt.granted (a : Attempt) : Prop :=
  match a.phase with
  | .helping _ => True
  | .done .unlocked => True
  | _ => False

/-- Only the right password gets an attempt there. -/
theorem advance_granted {parse : List String → Except Int OverrideHelper.Cli} {p : Platform}
    {daemon : State} {prompt : Prompt} {env : Env} {fate : Fate} {a : Attempt}
    (hprompt : prompt ≠ .refused (some 0))
    (h : (Desk.advance parse p daemon prompt env fate a).granted) :
    prompt = .authorised ∨ a.granted := by
  obtain ⟨app, minutes, phase⟩ := a
  cases phase with
  | prompting command =>
      cases prompt with
      | unspawned e => cases h
      | refused code =>
          have hcode : code ≠ some 0 := by
            rintro rfl
            exact hprompt rfl
          have hphase : (⟨app, minutes, ended code⟩ : Attempt).granted := h
          rw [ended, if_neg hcode] at hphase
          cases hphase
      | authorised => exact .inl rfl
  | helping cli => exact .inr trivial
  | reporting code => cases h
  | done outcome => exact .inr h

/-- Whoever has got there was authorised in a turn of his own. -/
theorem granted_was_authorised {parse : List String → Except Int OverrideHelper.Cli} {p : Platform}
    {s₀ : State} {moves : List Move} (hmoves : ∀ m ∈ moves, Regular m) {i : Nat} {a : Attempt}
    (ha : (Desk.run parse p ⟨s₀, []⟩ moves).attempts[i]? = some a) (hgranted : a.granted) :
    ∃ env, .turn i .authorised env .answered ∈ moves := by
  induction moves using List.reverseRecOn generalizing a with
  | nil => cases ha
  | append_singleton moves m ih =>
      have ih := @ih fun m' hm' => hmoves m' (List.mem_append_left _ hm')
      have hold : (∃ env, .turn i .authorised env .answered ∈ moves) →
          ∃ env, .turn i .authorised env .answered ∈ moves ++ [m] :=
        fun ⟨env, hmem⟩ => ⟨env, List.mem_append_left _ hmem⟩
      have hm := hmoves m (by simp)
      rw [Desk.run_concat] at ha
      cases m with
      | daemon env e => exact hold (ih ha hgranted)
      | begin vars app minutes =>
          rw [Desk.step, Desk.proceed, List.getElem?_append] at ha
          split at ha
          · exact hold (ih ha hgranted)
          · rw [List.getElem?_singleton] at ha
            split at ha
            · obtain rfl := Option.some.inj ha
              unfold Attempt.begin at hgranted
              split at hgranted <;> cases hgranted
            · cases ha
      | turn j prompt env fate =>
          obtain ⟨hprompt, rfl, -⟩ := hm
          rw [Desk.step, Desk.proceed, List.getElem?_modify] at ha
          obtain ⟨b, hb, rfl⟩ := Option.map_eq_some_iff.mp ha
          by_cases hij : j = i
          · subst hij
            rw [if_pos rfl] at hgranted
            rcases advance_granted hprompt hgranted with rfl | hbefore
            · exact ⟨env, by simp⟩
            · exact hold (ih hb hbefore)
          · rw [if_neg hij] at hgranted
            exact hold (ih hb hgranted)

/-- A reader of the helper's own command lines. -/
def parseHelper : List String → Except Int OverrideHelper.Cli
  | [_, app, "--home", home, "--runtime-dir", dir] => .ok ⟨app, none, home, dir⟩
  | [_, app, "--home", home, "--runtime-dir", dir, "--minutes", m] =>
      match m.toNat? with
      | some n => if n < 2 ^ 32 then .ok ⟨app, some (UInt32.ofNat n), home, dir⟩ else .error 2
      | none => .error 2
  | _ => .error 2

theorem parseHelper_reads : OverrideHelper.Reads parseHelper := by
  intro app home dir minutes _ _ _
  cases minutes with
  | none => rfl
  | some m =>
      have hread : (toString m.toNat).toNat? = some m.toNat := Nat.toNat?_repr m.toNat
      simp only [Agent.helperCommand, Option.elim_some, List.cons_append, List.nil_append,
        parseHelper, hread, if_pos m.toNat_lt, UInt32.ofNat_toNat]

def kidVars : Agent.Vars := ⟨some "/home/kid", some "/run/user/1001", some "kid", none⟩

/-- Two attempts at the puzzles at once: one with a wrong password, one with the right one. -/
def puzzleMoves : List Move :=
  [.begin kidVars "org.kde.gcompris" none, .begin kidVars "org.kde.gcompris" none,
    .turn 0 (.refused (some 127)) sampleEnv .answered, .turn 1 .authorised sampleEnv .answered,
    .turn 1 .authorised sampleEnv .answered, .turn 0 .authorised sampleEnv .answered]

example :
    let d := Desk.run parseHelper samplePlatform ⟨sampleState, []⟩ puzzleMoves
    d.attempts.filterMap Attempt.unlocked = [("org.kde.gcompris", 30)] ∧
      d.attempts.filterMap Attempt.denied = ["org.kde.gcompris"] := by decide +kernel

end Override

end OmarchyKids
