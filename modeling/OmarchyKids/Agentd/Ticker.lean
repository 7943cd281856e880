import OmarchyKids.Agentd.Handlers

/-!
# OmarchyKids.Agentd.Ticker

The background loop: drops expired unlocks and fires the pre-warnings. Unlike a
request, a tick renders the tiles even when saving the config failed.
-/

namespace OmarchyKids.Ticker

/-- Drops the unlocks that have expired; rewrites both files if there were any. -/
def pruneUnlocks (p : Platform) (env : Env) (s : State) : State :=
  let (config, changed) := s.config.pruneExpiredUnlocks env.nowUtc
  let s := { s with config }
  if changed then (State.render p env (s.save p env).1).1 else s

/-- The smaller of what is left so far and one more cutoff. -/
def takeMin (remaining : Option Int) (value : Int) : Option Int :=
  some (remaining.elim value (min · value))

/-- Minutes until the next cutoff of an app: its limits and the next window. -/
def remainingMinutes (p : Platform) (env : Env) (s : State) (app : String) : Option Int :=
  let weekday := (p.zone.toLocal env.nowLocal).weekday
  let midnight := Budget.localMidnightUtc p.zone env.nowLocal
  let dailyUsed :=
    (Budget.computeDailyUsedMinutes env.sql s.db s.active midnight env.nowUtc).toOption.getD 0
  let appUsed :=
    (Budget.computeAppUsedMinutes env.sql s.db s.active app midnight env.nowUtc).toOption.getD 0
  let remaining := (s.config.dailyTotalMinutesToday weekday).map
    fun limit => (limit.toNat : Int) - dailyUsed.toNat
  let remaining := match s.config.perAppMinutesToday app weekday with
    | some limit => takeMin remaining (limit.toNat - appUsed.toNat)
    | none => remaining
  match Budget.minutesUntilNextWindowStart p s.config env.nowLocal with
  | some mins => takeMin remaining mins
  | none => remaining

/-- A pre-warning sent to the shell. -/
structure PreWarning where
  app : String
  minutesLeft : UInt32
  deriving DecidableEq, Repr

/-- One turn of the loop over the sessions that have not been warned. -/
def prewarn (p : Platform) (env : Env) (acc : State × List PreWarning) (candidate : UInt32 × String) :
    State × List PreWarning :=
  let (s, sent) := acc
  let (pid, app) := candidate
  match remainingMinutes p env s app with
  | none => acc
  | some remaining =>
      if remaining ≤ s.config.preWarningMinutes.toNat then
        ({ s with active := match s.active.lookup pid with
            | some session => s.active.insert pid { session with warned := true }
            | none => s.active },
          sent ++ [⟨app, UInt32.ofInt (max remaining 0)⟩])
      else acc

/-- One tick, with the pre-warnings it triggers. -/
def tick (p : Platform) (env : Env) (s : State) : State × List PreWarning :=
  let s := pruneUnlocks p env s
  let candidates := (s.active.entries.filter fun e => !e.2.warned).map fun e => (e.1, e.2.app)
  candidates.foldl (prewarn p env) (s, [])

end OmarchyKids.Ticker
