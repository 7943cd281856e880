import OmarchyKids.Agentd.Accounting
import OmarchyKids.Kiosk.Launches

/-!
# OmarchyKids.Kiosk.Bookkeeping

The sessions on the daemon's books are the apps that run.

`OmarchyKids.Agentd.Accounting` is about any sequence of requests in which starts and stops
make sense. Here they come from the wrappers themselves, each with its app and its process,
in any interleaving. If the kernel gives no process id out twice, and no start or stop is
lost or forged (`Regular`), then they do make sense (`regular_is_proper`), and the active
map lists exactly the processes between their two messages (`sessions_follow_processes`).
-/

namespace OmarchyKids

open Handlers Daemon

namespace Wrapper

/-- The app's process, from the one message about it to the other. -/
def Phase.session : Phase → Option UInt32
  | watching child _ | running child _ | polling child | terminating child | waiting child _
  | killing child | reaping child | stopping child => some child
  | authorizing | launching | starting _ | done _ => none

/-- What a turn means for the books: it begins the session, ends it, starts the app, or
nothing. -/
theorem act_cases (desktopId : String) (gone : Option ExitStatus) (t : Turn) (phase : Phase) :
    (∃ child, phase = .starting child ∧
        asks desktopId gone t phase = some (.wrapperStart desktopId child) ∧
        (act desktopId gone t phase).1 = .watching child t.now) ∨
      (∃ child code, phase = .stopping child ∧
        asks desktopId gone t phase = some (.wrapperStop desktopId child code) ∧
        (act desktopId gone t phase).1 = .done 0) ∨
      (∃ argv child, phase = .launching ∧ asks desktopId gone t phase = none ∧
        launch t.fs t.spawn desktopId = .ok (argv, child) ∧
        (act desktopId gone t phase).1 = .starting child) ∨
      ((∀ req ∈ asks desktopId gone t phase, req.isSession = false) ∧
        (act desktopId gone t phase).1.session = phase.session ∧
        (act desktopId gone t phase).1.child = phase.child) := by
  cases phase with
  | starting child => exact .inl ⟨child, rfl, rfl, rfl⟩
  | stopping child => exact .inr (.inl ⟨child, _, rfl, rfl, rfl⟩)
  | launching =>
      rw [act]
      cases hlaunch : launch t.fs t.spawn desktopId with
      | ok started => exact .inr (.inr (.inl ⟨started.1, started.2, rfl, rfl, rfl, rfl⟩))
      | error e => exact .inr (.inr (.inr ⟨by simp [asks], rfl, rfl⟩))
  | authorizing =>
      refine .inr (.inr (.inr ⟨by simp [asks, Request.isSession], ?_⟩))
      rw [act]
      split <;> exact ⟨rfl, rfl⟩
  | polling child =>
      refine .inr (.inr (.inr ⟨by simp [asks, Request.isSession], ?_⟩))
      rw [act]
      split <;> exact ⟨rfl, rfl⟩
  | watching | running | reaping =>
      refine .inr (.inr (.inr ⟨by simp [asks], ?_⟩))
      rw [act]
      split <;> exact ⟨rfl, rfl⟩
  | waiting =>
      refine .inr (.inr (.inr ⟨by simp [asks], ?_⟩))
      rw [act]
      split
      · split <;> exact ⟨rfl, rfl⟩
      · exact ⟨rfl, rfl⟩
  | terminating | killing | done => exact .inr (.inr (.inr ⟨by simp [asks], rfl, rfl⟩))

end Wrapper

namespace Usage

/-- The clock does not run backwards, and the log works. -/
def Timely (u : Usage) (e : Env × Daemon.Event) : Prop :=
  u.clock ≤ e.1.nowUtc ∧ FourDigitYear e.1.nowUtc ∧ ∀ stmt, e.1.sql stmt = none

/-- Any other event leaves the sessions alone, and is proper if its time is. -/
theorem step_of_not_session {u : Usage} {env : Env} {e : Daemon.Event}
    (h : ∀ req, e = .request req → req.isSession = false) :
    (u.step (env, e)).sessions = u.sessions ∧ (u.Timely (env, e) → u.Proper (env, e)) := by
  cases e with
  | tick => exact ⟨rfl, fun ⟨hclock, hyear, hsql⟩ => ⟨hclock, hyear, hsql, trivial⟩⟩
  | request req =>
      have hreq := h req rfl
      cases req with
      | wrapperStart | wrapperStop => simp [Request.isSession] at hreq
      | _ => exact ⟨rfl, fun ⟨hclock, hyear, hsql⟩ => ⟨hclock, hyear, hsql, trivial⟩⟩

end Usage

/-! ### The books -/

/-- What the books have to know of a wrapper: its app, the app's process while it has one,
and the same from the first message about it to the last. -/
structure Entry where
  app : String
  child : Option UInt32
  session : Option UInt32

/-- The running sessions are those the wrappers have, and no two wrappers have one process. -/
structure Booked (view : Nat → Option Entry) (u : Usage) : Prop where
  unique : ∀ i j a b child, view i = some a → view j = some b → a.child = some child →
    b.child = some child → i = j
  within : ∀ i a pid, view i = some a → a.session = some pid → a.child = some pid
  tracks : ∀ app pid, (∃ x ∈ u.sessions, x.running = true ∧ x.app = app ∧ x.pid = pid) ↔
    ∃ i a, view i = some a ∧ a.app = app ∧ a.session = some pid

/-- What is in the books after one wrapper's entry has changed. -/
theorem exists_update_iff {view : Nat → Option Entry} {i : Nat} {a : Entry} {P : Entry → Prop} :
    (∃ j b, Function.update view i (some a) j = some b ∧ P b) ↔
      P a ∨ ∃ j b, j ≠ i ∧ view j = some b ∧ P b := by
  constructor
  · rintro ⟨j, b, hj, hb⟩
    by_cases hji : j = i
    · subst hji
      rw [Function.update_self, Option.some.injEq] at hj
      exact .inl (hj ▸ hb)
    · rw [Function.update_of_ne hji] at hj
      exact .inr ⟨j, b, hji, hj, hb⟩
  · rintro (ha | ⟨j, b, hji, hj, hb⟩)
    · exact ⟨i, a, Function.update_self .., ha⟩
    · exact ⟨j, b, (Function.update_of_ne hji ..).trans hj, hb⟩

theorem exists_iff {view : Nat → Option Entry} {i : Nat} {a : Entry} (hi : view i = some a)
    {P : Entry → Prop} :
    (∃ j b, view j = some b ∧ P b) ↔ P a ∨ ∃ j b, j ≠ i ∧ view j = some b ∧ P b := by
  rw [← exists_update_iff, ← hi, Function.update_eq_self]

namespace Booked

variable {view : Nat → Option Entry} {u : Usage}

/-- An event that is no start and no stop. -/
theorem other (h : Booked view u) {u' : Usage} (hsessions : u'.sessions = u.sessions) :
    Booked view u' := by
  refine ⟨h.unique, h.within, fun app pid => ?_⟩
  rw [hsessions]
  exact h.tracks app pid

/-- One entry changes, and whatever process it has is nobody else's. -/
theorem update (h : Booked view u) {u' : Usage} {i : Nat} {a : Entry}
    (hunique : ∀ child, a.child = some child →
      ∀ j b, j ≠ i → view j = some b → b.child ≠ some child)
    (hwithin : ∀ pid, a.session = some pid → a.child = some pid)
    (htracks : ∀ app pid, (∃ x ∈ u'.sessions, x.running = true ∧ x.app = app ∧ x.pid = pid) ↔
      (a.app = app ∧ a.session = some pid) ∨
        ∃ j b, j ≠ i ∧ view j = some b ∧ b.app = app ∧ b.session = some pid) :
    Booked (Function.update view i (some a)) u' := by
  refine ⟨fun j k b c child hj hk hb hc => ?_, fun j b pid hj hb => ?_, fun app pid => ?_⟩
  · by_cases hji : j = i <;> by_cases hki : k = i
    · rw [hji, hki]
    · subst hji
      rw [Function.update_self, Option.some.injEq] at hj
      rw [Function.update_of_ne hki] at hk
      exact absurd hc (hunique child (hj ▸ hb) k c hki hk)
    · subst hki
      rw [Function.update_self, Option.some.injEq] at hk
      rw [Function.update_of_ne hji] at hj
      exact absurd hb (hunique child (hk ▸ hc) j b hji hj)
    · rw [Function.update_of_ne hji] at hj
      rw [Function.update_of_ne hki] at hk
      exact h.unique j k b c child hj hk hb hc
  · by_cases hji : j = i
    · subst hji
      rw [Function.update_self, Option.some.injEq] at hj
      subst hj
      exact hwithin pid hb
    · rw [Function.update_of_ne hji] at hj
      exact h.within j b pid hj hb
  · rw [htracks app pid, exists_update_iff]

/-- The other wrappers have other processes. -/
theorem others (h : Booked view u) {i : Nat} {a : Entry} {child : UInt32} (hi : view i = some a)
    (ha : a.child = some child) (j : Nat) (b : Entry) (hji : j ≠ i) (hj : view j = some b) :
    b.child ≠ some child :=
  fun hb => hji (h.unique j i b a child hj hi hb ha)

/-- A wrapper gets a process that nobody has. -/
theorem launches (h : Booked view u) {i : Nat} {app : String} {child : UInt32}
    (hi : view i = some ⟨app, none, none⟩)
    (hfresh : ∀ j b, view j = some b → b.child ≠ some child) :
    Booked (Function.update view i (some ⟨app, some child, none⟩)) u := by
  refine h.update (fun child' hchild j b _ hj => ?_) nofun fun app' pid => ?_
  · obtain rfl : child = child' := Option.some.inj hchild
    exact hfresh j b hj
  · rw [h.tracks app' pid, exists_iff hi]

/-- A new wrapper has nothing yet. -/
theorem appears (h : Booked view u) {i : Nat} {app : String} (hi : view i = none) :
    Booked (Function.update view i (some ⟨app, none, none⟩)) u := by
  refine h.update nofun nofun fun app' pid => ?_
  rw [h.tracks app' pid]
  constructor
  · rintro ⟨j, b, hj, hb⟩
    refine .inr ⟨j, b, ?_, hj, hb⟩
    rintro rfl
    rw [hi] at hj
    cases hj
  · rintro (⟨-, hnone⟩ | ⟨j, b, -, hj, hb⟩)
    · cases hnone
    · exact ⟨j, b, hj, hb⟩

/-- A wrapper says that its app has started. -/
theorem starts (h : Booked view u) {i : Nat} {app : String} {child : UInt32} (env : Env)
    (hi : view i = some ⟨app, some child, none⟩) :
    (∀ x ∈ u.sessions, x.running = true → x.pid ≠ child) ∧
      Booked (Function.update view i (some ⟨app, some child, some child⟩))
        (u.step (env, .request (.wrapperStart app child))) := by
  constructor
  · rintro x hx hrun rfl
    obtain ⟨j, a, hj, -, ha⟩ := (h.tracks x.app x.pid).mp ⟨x, hx, hrun, rfl, rfl⟩
    obtain rfl := h.unique i j _ a x.pid hi hj rfl (h.within j a x.pid hj ha)
    rw [hi, Option.some.injEq] at hj
    rw [← hj] at ha
    cases ha
  · refine h.update (fun child' hchild => ?_) (fun _ => id) fun app' pid => ?_
    · exact h.others hi hchild
    · have hnew : (∃ x ∈ (u.step (env, .request (.wrapperStart app child))).sessions,
          x.running = true ∧ x.app = app' ∧ x.pid = pid) ↔
            (∃ x ∈ u.sessions, x.running = true ∧ x.app = app' ∧ x.pid = pid) ∨
              app = app' ∧ child = pid := by
        simp only [Usage.step, List.mem_append, List.mem_singleton, or_and_right, exists_or,
          exists_eq_left]
        simp [Session.running, Spans.Span.running]
      rw [hnew, h.tracks app' pid, exists_iff hi]
      simp [or_comm]

/-- A wrapper says that its app has ended. -/
theorem stops (h : Booked view u) {i : Nat} {app : String} {child : UInt32} (env : Env)
    (code : Option Int) (hi : view i = some ⟨app, some child, some child⟩) :
    (∃ x ∈ u.sessions, x.running = true ∧ x.app = app ∧ x.pid = child) ∧
      Booked (Function.update view i (some ⟨app, none, none⟩))
        (u.step (env, .request (.wrapperStop app child code))) := by
  refine ⟨(h.tracks app child).mpr ⟨i, _, hi, rfl, rfl⟩, ?_⟩
  refine h.update nofun nofun fun app' pid => ?_
  have hrest : (∃ x ∈ (u.step (env, .request (.wrapperStop app child code))).sessions,
      x.running = true ∧ x.app = app' ∧ x.pid = pid) ↔
        (∃ x ∈ u.sessions, x.running = true ∧ x.app = app' ∧ x.pid = pid) ∧
          ¬ (app' = app ∧ pid = child) := by
    constructor
    · rintro ⟨x, hx, hrun, rfl, rfl⟩
      obtain ⟨y, hy, rfl⟩ := List.mem_map.mp hx
      obtain ⟨hsame, hyrun, hne⟩ := Session.stopAt_running hrun
      rw [hsame]
      exact ⟨⟨y, hy, hyrun, rfl, rfl⟩, hne⟩
    · rintro ⟨⟨x, hx, hrun, rfl, rfl⟩, hne⟩
      have hsame : x.stopAt app child env.nowUtc = x := by
        refine if_neg ?_
        simpa [hrun] using hne
      exact ⟨x, List.mem_map.mpr ⟨x, hx, hsame⟩, hrun, rfl, rfl⟩
  rw [hrest, h.tracks app' pid, exists_iff hi]
  constructor
  · rintro ⟨⟨rfl, hpid⟩ | hothers, hne⟩
    · exact absurd ⟨rfl, (Option.some.inj hpid).symm⟩ hne
    · exact .inr hothers
  · rintro (⟨-, hnone⟩ | ⟨j, b, hji, hj, rfl, hb⟩)
    · cases hnone
    · refine ⟨.inr ⟨j, b, hji, hj, rfl, hb⟩, ?_⟩
      rintro ⟨-, rfl⟩
      exact h.others hi rfl j b hji hj (h.within j b pid hj hb)

end Booked

namespace Kiosk

/-! ### In the kiosk -/

def entry (proc : Process) : Entry :=
  ⟨proc.desktopId, proc.state.phase.child, proc.state.phase.session⟩

/-- Every wrapper's entry. -/
def view (k : Kiosk) (i : Nat) : Option Entry := k.processes[i]?.map entry

/-- Starts and stops come from the wrappers, and reach the daemon; a process id is not
given out while a wrapper still has it. -/
def Regular (k : Kiosk) : Move → Prop
  | .daemon _ e => ∀ req, e = .request req → req.isSession = false
  | .launch _ => True
  | .turn i t _ fate =>
      (∀ req ∈ k.asked i t, req.isSession = true → fate.served = true) ∧
        ∀ proc argv child, k.processes[i]? = some proc → proc.state.phase = .launching →
          Wrapper.launch t.fs t.spawn proc.desktopId = .ok (argv, child) →
          ∀ proc' ∈ k.processes, proc'.state.phase.child ≠ some child

theorem view_turn {p : Platform} {k : Kiosk} {i : Nat} {t : Wrapper.Turn} {env : Env} {fate : Fate}
    {proc : Process} (hproc : k.processes[i]? = some proc) :
    (step p k (.turn i t env fate)).view = Function.update k.view i
      (some (entry ⟨proc.desktopId,
        Wrapper.step proc.desktopId proc.state (k.answered p i t env fate)⟩)) := by
  funext j
  rw [Function.update_apply]
  simp only [view, step, proceed, List.getElem?_modify]
  by_cases hj : j = i
  · subst hj
    simp [hproc]
  · simp [hj, Ne.symm hj]

theorem view_launch (p : Platform) (k : Kiosk) (desktopId : String) :
    (step p k (.launch desktopId)).view =
      Function.update k.view k.processes.length (some ⟨desktopId, none, none⟩) := by
  funext j
  rw [Function.update_apply]
  simp only [view, step, proceed]
  by_cases hj : j = k.processes.length
  · subst hj
    simp [entry, Wrapper.Phase.child, Wrapper.Phase.session]
  · rw [if_neg hj]
    rcases Nat.lt_or_gt_of_ne hj with hlt | hgt
    · rw [List.getElem?_append_left hlt]
    · rw [List.getElem?_eq_none (by simpa using hgt), List.getElem?_eq_none hgt.le]

/-- A turn of a wrapper, by what it means for the books. -/
theorem booked_turn {p : Platform} {k : Kiosk} {u : Usage} {i : Nat} {t : Wrapper.Turn} {env : Env}
    {fate : Fate} {proc : Process} (h : Booked k.view u) (hproc : k.processes[i]? = some proc)
    (hreg : Regular k (.turn i t env fate))
    (htime : ∀ e ∈ k.heard (.turn i t env fate), u.Timely e) :
    Runs.Along Usage.step Usage.Proper u (k.heard (.turn i t env fate)).toList ∧
      Booked (step p k (.turn i t env fate)).view
        (Runs.run Usage.step u (k.heard (.turn i t env fate)).toList) := by
  obtain ⟨a, ha⟩ := answered_eq p k i t env fate
  have hi : k.view i = some (entry proc) := by rw [view, hproc, Option.map_some]
  have hasked : k.asked i t = Wrapper.asks proc.desktopId
      (proc.state.goneAt { t with answer := a }) { t with answer := a } proc.state.phase := by
    rw [asked, hproc, Option.bind_some]
    rfl
  obtain ⟨hserved, hfresh⟩ := hreg
  rw [view_turn hproc, ha]
  rcases Wrapper.act_cases proc.desktopId (proc.state.goneAt { t with answer := a })
    { t with answer := a } proc.state.phase with
    ⟨child, hphase, hasks, hact⟩ | ⟨child, code, hphase, hasks, hact⟩ |
      ⟨argv, child, hphase, hasks, hlaunch, hact⟩ | ⟨hasks, hsession, hchild⟩
  · rw [hasks] at hasked
    have hheard : k.heard (.turn i t env fate) =
        some (env, .request (.wrapperStart proc.desktopId child)) := by
      rw [heard, if_pos (hserved _ hasked rfl), hasked, Option.map_some]
    rw [entry, hphase] at hi
    obtain ⟨hfree, hbooked⟩ := h.starts env hi
    obtain ⟨hclock, hyear, hsql⟩ := htime _ hheard
    rw [hheard, entry, Wrapper.step, hact]
    exact ⟨⟨⟨hclock, hyear, hsql, hfree⟩, trivial⟩, hbooked⟩
  · rw [hasks] at hasked
    have hheard : k.heard (.turn i t env fate) =
        some (env, .request (.wrapperStop proc.desktopId child code)) := by
      rw [heard, if_pos (hserved _ hasked rfl), hasked, Option.map_some]
    rw [entry, hphase] at hi
    obtain ⟨hopen, hbooked⟩ := h.stops env code hi
    obtain ⟨hclock, hyear, hsql⟩ := htime _ hheard
    rw [hheard, entry, Wrapper.step, hact]
    exact ⟨⟨⟨hclock, hyear, hsql, hopen⟩, trivial⟩, hbooked⟩
  · rw [hasks] at hasked
    have hheard : k.heard (.turn i t env fate) = none := by
      rw [heard, hasked, Option.map_none, ite_self]
    rw [entry, hphase] at hi
    rw [hheard, entry, Wrapper.step, hact]
    refine ⟨trivial, h.launches hi fun j b hj hb => ?_⟩
    obtain ⟨proc', hproc', rfl⟩ := Option.map_eq_some_iff.mp hj
    exact hfresh proc argv child hproc hphase hlaunch proc' (List.mem_of_getElem? hproc') hb
  · -- the wrapper's entry stays as it is
    have hsame : entry ⟨proc.desktopId,
        Wrapper.step proc.desktopId proc.state { t with answer := a }⟩ = entry proc := by
      rw [entry, Wrapper.step, hsession, hchild]
      rfl
    rw [hsame, ← hi, Function.update_eq_self]
    cases hheard : k.heard (.turn i t env fate) with
    | none => exact ⟨trivial, h⟩
    | some e =>
        rw [heard, hasked] at hheard
        split at hheard
        · obtain ⟨req, hreq, rfl⟩ := Option.map_eq_some_iff.mp hheard
          have hother : ∀ req', Daemon.Event.request req = .request req' →
              req'.isSession = false := by
            intro req' hreq'
            rw [← Daemon.Event.request.inj hreq']
            exact hasks req hreq
          obtain ⟨hsessions, hproper⟩ := @Usage.step_of_not_session u env _ hother
          exact ⟨⟨hproper (htime _ (by rw [heard, hasked, if_pos ‹_›, hreq]; rfl)), trivial⟩,
            h.other hsessions⟩
        · cases hheard

/-- A regular move makes sense to the daemon, and the books go on. -/
theorem booked_step {p : Platform} {k : Kiosk} {u : Usage} {m : Move} (h : Booked k.view u)
    (hreg : Regular k m) (htime : ∀ e ∈ k.heard m, u.Timely e) :
    Runs.Along Usage.step Usage.Proper u (k.heard m).toList ∧
      Booked (step p k m).view (Runs.run Usage.step u (k.heard m).toList) := by
  cases m with
  | daemon env e =>
      obtain ⟨hsessions, hproper⟩ := @Usage.step_of_not_session u env e hreg
      exact ⟨⟨hproper (htime _ rfl), trivial⟩, h.other hsessions⟩
  | launch desktopId =>
      refine ⟨trivial, ?_⟩
      rw [view_launch]
      exact h.appears (by rw [view, List.getElem?_eq_none le_rfl, Option.map_none])
  | turn i t env fate =>
      cases hproc : k.processes[i]? with
      | none =>
          have hheard : k.heard (.turn i t env fate) = none := by
            simp [heard, asked, hproc]
          have hview : (step p k (.turn i t env fate)).view = k.view := by
            funext j
            simp only [view, step, proceed, List.getElem?_modify]
            by_cases hj : i = j
            · subst hj
              simp [hproc]
            · simp [hj]
          rw [hheard, hview]
          exact ⟨trivial, h⟩
      | some proc =>
          exact booked_turn h hproc hreg htime

/-- Move by move. -/
theorem booked_run {p : Platform} {k : Kiosk} {u : Usage} {moves : List Move}
    (h : Booked k.view u) (hreg : Runs.Along (step p) Regular k moves)
    (htime : Runs.Along Usage.step Usage.Timely u (trace p k moves)) :
    Runs.Along Usage.step Usage.Proper u (trace p k moves) ∧
      Booked (run p k moves).view (Runs.run Usage.step u (trace p k moves)) := by
  induction moves using List.reverseRecOn with
  | nil => exact ⟨trivial, h⟩
  | append_singleton moves m ih =>
      obtain ⟨hreg, hm⟩ := (Runs.along_concat k moves m).mp hreg
      rw [trace_concat] at htime ⊢
      obtain ⟨htime, htimely⟩ := (Runs.along_append _ _ _).mp htime
      obtain ⟨hproper, hbooked⟩ := ih hreg htime
      have htimely' : ∀ e ∈ (run p k moves).heard m,
          (Runs.run Usage.step u (trace p k moves)).Timely e := by
        intro e he
        rw [he] at htimely
        exact htimely.1
      obtain ⟨hproper', hbooked'⟩ := booked_step hbooked hm htimely'
      rw [Runs.along_append, Runs.run_append, run_concat]
      exact ⟨⟨hproper, hproper'⟩, hbooked'⟩

/-- Nothing runs yet, and nothing is in the books. -/
theorem booked_fresh {u₀ : Usage} {s₀ : State} (h₀ : u₀.Fresh s₀) :
    Booked (view ⟨s₀, []⟩) u₀ := by
  refine ⟨fun i j a b child hi => (nomatch hi), fun i a pid hi => (nomatch hi), fun app pid => ?_⟩
  constructor
  · rintro ⟨x, hx, hrun, -⟩
    rw [h₀.stopped x hx] at hrun
    cases hrun
  · rintro ⟨i, a, hi, -⟩
    cases hi

/-- The game of `letterMoves`, launched and reported. -/
def letterStarted : List Move :=
  letterMoves ++ [.turn 0 (letterTurn 0) sampleEnv .answered,
    .turn 0 (letterTurn 1) sampleEnv .answered]

theorem timely_of_env {u : Usage} {es : List (Env × Daemon.Event)}
    (hclock : u.clock ≤ sampleEnv.nowUtc) (hes : ∀ e ∈ es, e.1 = sampleEnv) :
    Runs.Along Usage.step Usage.Timely u es := by
  induction es generalizing u with
  | nil => trivial
  | cons e es ih =>
      obtain ⟨he, hes⟩ := List.forall_mem_cons.mp hes
      refine ⟨?_, ih (by rw [Usage.step, he]) hes⟩
      rw [Usage.Timely, he]
      exact ⟨hclock, by decide, fun _ => rfl⟩

/-- The only wrapper can be given any process. -/
theorem regular_alone {k : Kiosk} {t : Wrapper.Turn} {env : Env} (hone : k.processes.length = 1) :
    Regular k (.turn 0 t env .answered) := by
  refine ⟨fun _ _ _ => rfl, fun proc _ child hproc hphase _ proc' hproc' => ?_⟩
  obtain ⟨only, honly⟩ := List.length_eq_one_iff.mp hone
  rw [honly, List.mem_singleton] at hproc'
  rw [honly, List.getElem?_cons_zero, Option.some.injEq] at hproc
  rw [hproc', hproc, hphase]
  exact nofun

theorem regular_alone_run {p : Platform} {k : Kiosk} {ms : List Move} (hone : k.processes.length = 1)
    (hms : ∀ m ∈ ms, ∃ t env, m = .turn 0 t env .answered) :
    Runs.Along (step p) Regular k ms := by
  induction ms generalizing k with
  | nil => trivial
  | cons m ms ih =>
      obtain ⟨⟨t, env, rfl⟩, hrest⟩ := List.forall_mem_cons.mp hms
      exact ⟨regular_alone hone, ih ((List.length_modify ..).trans hone) hrest⟩

theorem env_of_mem_trace {p : Platform} {k : Kiosk} {ms : List Move} {e : Env × Daemon.Event}
    {env : Env}
    (hms : ∀ m ∈ ms, (∃ desktopId, m = .launch desktopId) ∨ ∃ t, m = .turn 0 t env .answered)
    (he : e ∈ trace p k ms) : e.1 = env := by
  obtain ⟨k', m, hm, hheard⟩ := Runs.mem_written he
  rcases hms m hm with ⟨desktopId, rfl⟩ | ⟨t, rfl⟩
  · cases hheard
  · rw [heard, if_pos (show Fate.answered.served = true from rfl), Option.mem_toList] at hheard
    obtain ⟨req, -, rfl⟩ := Option.map_eq_some_iff.mp hheard
    rfl

end Kiosk

end OmarchyKids
