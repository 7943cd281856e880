import OmarchyKids.Agentd.Policy

/-!
# OmarchyKids.Agentd.Authorisation

Which apps the policy can come to accept. `Request.Admits` lists the ways one
request can let an app in, and `step_admits` says that one step of the daemon
lets in nothing else. Over a run, every accepted app was accepted from the start
or has such a request in the run's history.

A caller is not authenticated by any of this: `SetTier` checks its content (the
tier, and that every tile is an installed application), `Unlock` the curated
list, and `Override` nothing.
-/

namespace OmarchyKids

open Handlers Daemon

/-- The ways a request can let `app` into the policy. -/
def Request.Admits (env : Env) (app : String) : Request → Prop
  | setTier tier apps =>
      tier ∈ knownTiers ∧ ∃ tiles, apps = some tiles ∧ app ∈ tiles.map AppTile.desktopId ∧
        ∀ tile ∈ tiles, (Desktop.findDesktopFile env.fs tile.desktopId).isSome
  | unlock a _ => a = app ∧ app ∈ env.allowlist.load
  | override a _ => a = app
  | _ => False

namespace Config

@[simp] theorem mem_pushUnlock {c : Config} {u : UnlockedApp} {app : String} :
    (c.pushUnlock u).isAppAllowed app = true ↔ c.isAppAllowed app = true ∨ app = u.desktopId := by
  rw [isAppAllowed_iff, isAppAllowed_iff]
  simp only [pushUnlock, List.map_append, List.mem_append, List.mem_map, List.mem_filter,
    List.mem_singleton, bne_iff_ne, ne_eq]
  constructor
  · rintro (hbase | ⟨v, ⟨hv, -⟩, rfl⟩ | ⟨v, rfl, rfl⟩)
    · exact .inl (.inl hbase)
    · exact .inl (.inr ⟨v, hv, rfl⟩)
    · exact .inr rfl
  · rintro ((hbase | ⟨v, hv, rfl⟩) | rfl)
    · exact .inl hbase
    · -- an older unlock of the same app is dropped, but the new one stands in
      by_cases hsame : v.desktopId = u.desktopId
      · exact .inr (.inr ⟨u, rfl, hsame.symm⟩)
      · exact .inr (.inl ⟨v, ⟨hv, hsame⟩, rfl⟩)
    · exact .inr (.inr ⟨u, rfl, rfl⟩)

theorem mem_switchTier {c : Config} {tier : String} {apps : Option (List AppTile)} {app : String} :
    (c.switchTier tier apps).isAppAllowed app = true ↔
      app ∈ (apps.getD c.apps.base).map AppTile.desktopId ∨
        app ∈ c.apps.unlocked.map UnlockedApp.desktopId := isAppAllowed_iff

/-- Pruning lets no app in. -/
theorem isAppAllowed_of_pruned {c : Config} {now : DateTime} {app : String}
    (h : (c.pruned now).isAppAllowed app = true) : c.isAppAllowed app = true := by
  rw [isAppAllowed_iff] at h ⊢
  refine h.imp id fun hmem => ?_
  obtain ⟨u, hu, rfl⟩ := List.mem_map.mp hmem
  exact List.mem_map_of_mem (List.mem_of_mem_filter hu)

end Config

/-- A permitted edit lets in only what its request admits. -/
theorem edit_admits {env : Env} {req : Request} {c c' : Config} {app : String}
    (hedit : req.edit env c = some c') (hperm : req.permitted env = true)
    (happ : c'.isAppAllowed app = true) : c.isAppAllowed app = true ∨ req.Admits env app := by
  cases req with
  | setTier tier apps =>
      obtain rfl : c.switchTier tier apps = c' := by simpa [Request.edit] using hedit
      obtain ⟨htier, hresolved⟩ : tier ∈ knownTiers ∧ apps.bind (unresolvedTile env.fs) = none := by
        simpa [Request.permitted] using hperm
      rcases Config.mem_switchTier.mp happ with hbase | hunlocked
      · cases apps with
        | none => exact .inl (Config.isAppAllowed_iff.mpr (.inl hbase))
        | some tiles =>
            refine .inr ⟨htier, tiles, rfl, hbase, fun tile htile => ?_⟩
            have hnone : unresolvedTile env.fs tiles = none := hresolved
            have := List.find?_eq_none.mp hnone tile htile
            simpa [Option.isSome_iff_ne_none] using this
      · exact .inl (Config.isAppAllowed_iff.mpr (.inr hunlocked))
  | unlock a minutes =>
      obtain rfl : c.pushUnlock (newUnlock env a (minutes.getD defaultUnlockMinutes) false) = c' := by
        simpa [Request.edit] using hedit
      refine (Config.mem_pushUnlock.mp happ).imp id fun heq => ?_
      obtain rfl : app = a := heq
      exact ⟨rfl, by simpa [Request.permitted, unlockIsPermitted] using hperm⟩
  | override a minutes =>
      obtain rfl : c.pushUnlock (newUnlock env a (minutes.getD defaultUnlockMinutes) true) = c' := by
        simpa [Request.edit] using hedit
      refine (Config.mem_pushUnlock.mp happ).imp id fun heq => ?_
      exact Eq.symm heq
  | _ => cases hedit

/-- One step of the daemon lets in only what its request admits. -/
theorem step_admits {p : Platform} {s : State} {env : Env} {event : Event} {app : String}
    (h : (step p s (env, event)).config.isAppAllowed app = true) :
    s.config.isAppAllowed app = true ∨ ∃ req, event = .request req ∧ req.Admits env app := by
  cases event with
  | request req =>
      have hpol := congrArg Policy.config (dispatch_policy p env s req)
      rw [show (step p s (env, .request req)).config = (dispatch p env s req).1.policy.config from rfl,
        hpol] at h
      cases hedit : req.edit env s.config with
      | none =>
          rw [hedit] at h
          exact .inl h
      | some c =>
          rw [hedit] at h
          cases hperm : req.permitted env with
          | false =>
              simp only [hperm] at h
              exact .inl h
          | true =>
              simp only [hperm, if_true] at h
              exact (edit_admits hedit hperm h).imp id fun hadm => ⟨req, rfl, hadm⟩
  | tick =>
      have hpol := congrArg Policy.config (tick_policy p env s)
      rw [show (step p s (env, .tick)).config = (Ticker.tick p env s).1.policy.config from rfl,
        hpol] at h
      split at h
      · exact .inl (Config.isAppAllowed_of_pruned h)
      · exact .inl h

/-- At every point of a run, an accepted app was accepted from the start or
admitted by a request of the run: by an `Unlock` while it was on the curated
list, by a `SetTier` to a known tier whose tiles were all installed, or by an
`Override`. -/
theorem accepted_app_was_admitted (p : Platform) (s : State) (events : List (Env × Event))
    (app : String) (h : (Runs.run (step p) s events).config.isAppAllowed app = true) :
    s.config.isAppAllowed app = true ∨
      ∃ env req, (env, Event.request req) ∈ events ∧ req.Admits env app := by
  revert h
  refine Runs.run_history
    (I := fun past (s' : State) => s'.config.isAppAllowed app = true → s.config.isAppAllowed app = true ∨
      ∃ env req, (env, Event.request req) ∈ past ∧ req.Admits env app) .inl ?_ events
  rintro past s' ⟨env, event⟩ ih happ
  rcases step_admits happ with hbefore | ⟨req, rfl, hadm⟩
  · rcases ih hbefore with hstart | ⟨env', req, hmem, hadm⟩
    · exact .inl hstart
    · exact .inr ⟨env', req, List.mem_append_left _ hmem, hadm⟩
  · exact .inr ⟨env, req, List.mem_append_right _ (List.mem_singleton.mpr rfl), hadm⟩

/-! ### A tier switch with an installed but uncurated app -/

/-- A terminal is installed; nothing is on the curated list. -/
def terminalEnv : Env where
  nowUtc := sampleEnv.nowUtc
  nowLocal := sampleEnv.nowLocal
  fs := ⟨fun path => path == "/usr/share/applications/org.gnome.Terminal.desktop", fun _ => none⟩

def switchToTerminal : List (Env × Event) :=
  [(terminalEnv, .request (.setTier "mini"
    (some [⟨"org.gnome.Terminal", "Terminal", "utilities-terminal", "#000000"⟩])))]

/-- The app was accepted from the start or curated when it was unlocked. -/
def CuratedOnly (s : State) (events : List (Env × Event)) (app : String) : Prop :=
  s.config.isAppAllowed app = true ∨
    ∃ env minutes, (env, Event.request (.unlock app minutes)) ∈ events ∧ app ∈ env.allowlist.load

theorem accepted_app_was_admitted_terminal :
    (Runs.run (step samplePlatform) sampleState switchToTerminal).config.isAppAllowed
        "org.gnome.Terminal" = true ∧
      (sampleState.config.isAppAllowed "org.gnome.Terminal" = true ∨
        ∃ env req, (env, Event.request req) ∈ switchToTerminal ∧
          req.Admits env "org.gnome.Terminal") := by
  have h : (Runs.run (step samplePlatform) sampleState switchToTerminal).config.isAppAllowed
      "org.gnome.Terminal" = true := by decide
  exact ⟨h, accepted_app_was_admitted samplePlatform sampleState switchToTerminal _ h⟩

/-- A tier switch needs no curated list. -/
theorem setTier_admits_uncurated_app :
    ¬ ∀ (p : Platform) (s : State) (events : List (Env × Event)) (app : String),
      (Runs.run (step p) s events).config.isAppAllowed app = true → CuratedOnly s events app := by
  intro h
  have haccepted : (Runs.run (step samplePlatform) sampleState switchToTerminal).config.isAppAllowed
      "org.gnome.Terminal" = true := by decide
  rcases h _ _ _ _ haccepted with hstart | ⟨env, minutes, hmem, -⟩
  · exact absurd hstart (by decide)
  · simp [switchToTerminal] at hmem

end OmarchyKids
