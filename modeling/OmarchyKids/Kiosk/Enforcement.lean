import OmarchyKids.Kiosk.Launches

/-!
# OmarchyKids.Kiosk.Enforcement

How long an app that the daemon refuses can go on.

A wrapper looks at its app, at the clock and at the daemon in turn. Suppose that no two of
its turns are further apart than `δ`, and that from some instant on the daemon refuses the
app whenever it is asked. The next poll comes after at most fifteen seconds; `bound` is
that instant. Every phase between the poll and the signals lasts one turn, except for the
grace period (`OnCourse`), so the first signal falls due three turns after `bound`, and the
second five turns after the end of the grace period. When they have passed the app has been
signalled or has ended by itself (`cut_off_in_time`).
-/

namespace OmarchyKids

open Handlers Daemon

namespace Wrapper

/-! ### The clock -/

/-- In order from `now` on, no two further apart than `δ`. -/
def Paced (δ : Nat) : Nat → List Turn → Prop
  | _, [] => True
  | now, t :: ts => now ≤ t.now ∧ t.now ≤ now + δ ∧ Paced δ t.now ts

instance decidablePaced (δ : Nat) : ∀ (now : Nat) (turns : List Turn), Decidable (Paced δ now turns)
  | _, [] => instDecidableTrue
  | now, t :: ts =>
      have := decidablePaced δ t.now ts
      inferInstanceAs (Decidable (now ≤ t.now ∧ t.now ≤ now + δ ∧ Paced δ t.now ts))

/-- The instant of the last turn. -/
def lastTurn (now : Nat) (turns : List Turn) : Nat := (turns.map Turn.now).getLast?.getD now

theorem lastTurn_concat (now : Nat) (turns : List Turn) (t : Turn) :
    lastTurn now (turns ++ [t]) = t.now := by
  simp [lastTurn]

theorem lastTurn_cons (now : Nat) (t : Turn) (turns : List Turn) :
    lastTurn now (t :: turns) = lastTurn t.now turns := by
  rw [lastTurn, lastTurn, List.map_cons, List.getLast?_cons, Option.getD_some]

theorem paced_concat {δ now : Nat} {turns : List Turn} {t : Turn} :
    Paced δ now (turns ++ [t]) ↔
      Paced δ now turns ∧ lastTurn now turns ≤ t.now ∧ t.now ≤ lastTurn now turns + δ := by
  induction turns generalizing now with
  | nil => simp [Paced, lastTurn]
  | cons u turns ih => rw [List.cons_append, Paced, Paced, ih, lastTurn_cons, and_assoc, and_assoc]

/-! ### On course for the signals -/

section OnCourse

variable (child : UInt32) (δ bound : Nat)

/-- Still to be told to end: the phase, and how late it can be in it. -/
def Untold (now : Nat) : Phase → Prop
  | .watching c lastPoll => c = child ∧ lastPoll + pollInterval ≤ bound ∧ now ≤ bound
  | .running c lastPoll => c = child ∧ lastPoll + pollInterval ≤ bound ∧ now ≤ bound + δ
  | .polling c => c = child ∧ now ≤ bound + 2 * δ
  | .terminating c => c = child ∧ now ≤ bound + 3 * δ
  | _ => False

/-- Told, and still to be killed. -/
def Told (now : Nat) : Phase → Prop
  | .waiting c deadline => c = child ∧ deadline ≤ bound + killGrace + 4 * δ ∧ now < deadline
  | .killing c => c = child ∧ now ≤ bound + killGrace + 5 * δ
  | _ => False

/-- The app has ended, or the two signals come when they are due. -/
def OnCourse (now : Nat) (s : State) (es : List Event) : Prop :=
  s.gone.isSome ∨ Untold child δ bound now s.phase ∨
    .signalled child .term ∈ es ∧ (Told child δ bound now s.phase ∨ .signalled child .kill ∈ es)

variable {child δ bound}

/-- One turn on the way to the first signal. -/
theorem untold_act {desktopId : String} {now : Nat} {phase : Phase} {t : Turn}
    (h : Untold child δ bound now phase) (hwait : t.waitFails = false) (hlate : t.now ≤ now + δ)
    (hrefused : ∀ child, phase = .polling child → Says false t.answer) :
    Untold child δ bound t.now (act desktopId none t phase).1 ∨
      .signalled child .term ∈ (act desktopId none t phase).2 ∧
        Told child δ bound t.now (act desktopId none t phase).1 := by
  cases phase with
  | watching c lastPoll =>
      obtain ⟨rfl, hpoll, hnow⟩ := h
      left
      simp only [act, hwait, Option.isSome_none, Bool.or_self, Bool.false_eq_true, if_false]
      exact ⟨rfl, hpoll, by omega⟩
  | running c lastPoll =>
      obtain ⟨rfl, hpoll, hnow⟩ := h
      left
      rw [act]
      split
      · exact ⟨rfl, by omega⟩
      · exact ⟨rfl, hpoll, by omega⟩
  | polling c =>
      obtain ⟨rfl, hnow⟩ := h
      left
      rw [act, stillAllowed_eq_false_iff.mpr (hrefused c rfl)]
      exact ⟨rfl, by omega⟩
  | terminating c =>
      obtain ⟨rfl, hnow⟩ := h
      right
      exact ⟨List.mem_singleton_self _, rfl, by omega, Nat.lt_add_of_pos_right (by decide)⟩
  | authorizing | launching | starting | waiting | killing | reaping | stopping | done => cases h

/-- One turn on the way to the second. -/
theorem told_act {desktopId : String} {now : Nat} {phase : Phase} {t : Turn}
    (h : Told child δ bound now phase) (hlate : t.now ≤ now + δ) :
    Told child δ bound t.now (act desktopId none t phase).1 ∨
      .signalled child .kill ∈ (act desktopId none t phase).2 := by
  cases phase with
  | waiting c deadline =>
      obtain ⟨rfl, hdeadline, hnow⟩ := h
      left
      simp only [act, Option.isSome_none, Bool.and_false, Bool.false_eq_true, if_false]
      split
      next hearly => exact ⟨rfl, hdeadline, hearly⟩
      next => exact ⟨rfl, by omega⟩
  | killing c =>
      obtain ⟨rfl, hnow⟩ := h
      exact .inr (List.mem_singleton_self _)
  | authorizing | launching | starting | watching | running | polling | terminating | reaping
  | stopping | done => cases h

theorem OnCourse.step {desktopId : String} {now : Nat} {s : State} {es : List Event} {t : Turn}
    (h : OnCourse child δ bound now s es) (hwait : t.waitFails = false) (hlate : t.now ≤ now + δ)
    (hrefused : ∀ child, s.phase = .polling child → Says false t.answer) :
    OnCourse child δ bound t.now (step desktopId s t) (es ++ out desktopId s t) := by
  by_cases hgone : (s.goneAt t).isSome
  · exact .inl hgone
  · have hnone : s.goneAt t = none := by simpa using hgone
    have hout : out desktopId s t = (act desktopId none t s.phase).2 := by
      rw [out, State.exitAt, hnone, Option.map_none, Option.toList_none, ite_self,
        List.nil_append]
    rw [Wrapper.step, hout, hnone]
    rcases h with hended | huntold | ⟨hterm, htold | hkill⟩
    · exact absurd (isSome_goneAt hended t) hgone
    · rcases untold_act huntold hwait hlate hrefused with huntold | ⟨hterm, htold⟩
      · exact .inr (.inl huntold)
      · exact .inr (.inr ⟨List.mem_append_right _ hterm, .inl htold⟩)
    · rcases told_act htold hlate with htold | hkill
      · exact .inr (.inr ⟨List.mem_append_left _ hterm, .inl htold⟩)
      · exact .inr (.inr ⟨List.mem_append_left _ hterm, .inr (List.mem_append_right _ hkill)⟩)
    · exact .inr (.inr ⟨List.mem_append_left _ hterm, .inr (List.mem_append_left _ hkill)⟩)

theorem Untold.le {now : Nat} {phase : Phase} (h : Untold child δ bound now phase) :
    now ≤ bound + 3 * δ := by
  cases phase with
  | watching | running =>
      have hnow := h.2.2
      omega
  | polling | terminating =>
      have hnow := h.2
      omega
  | authorizing | launching | starting | waiting | killing | reaping | stopping | done => cases h

theorem Told.le {now : Nat} {phase : Phase} (h : Told child δ bound now phase) :
    now ≤ bound + killGrace + 5 * δ := by
  cases phase with
  | waiting =>
      have hdeadline := h.2.1
      have hnow := h.2.2
      omega
  | killing => exact h.2
  | authorizing | launching | starting | watching | running | polling | terminating | reaping
  | stopping | done => cases h

/-- When the first signal has fallen due, the app has got it or has ended. -/
theorem OnCourse.told {now : Nat} {s : State} {es : List Event}
    (h : OnCourse child δ bound now s es) (hlate : bound + 3 * δ < now) :
    s.gone.isSome ∨ .signalled child .term ∈ es := by
  rcases h with hended | huntold | ⟨hterm, -⟩
  · exact .inl hended
  · exact absurd huntold.le (not_le.mpr hlate)
  · exact .inr hterm

/-- And when the second has, it has got both or has ended. -/
theorem OnCourse.killed {now : Nat} {s : State} {es : List Event}
    (h : OnCourse child δ bound now s es) (hlate : bound + killGrace + 5 * δ < now) :
    s.gone.isSome ∨ .signalled child .kill ∈ es := by
  rcases h with hended | huntold | ⟨-, htold | hkill⟩
  · exact .inl hended
  · have hnow := huntold.le
    omega
  · exact absurd htold.le (not_le.mpr hlate)
  · exact .inr hkill

/-- Turn by turn, as long as every poll is refused. -/
theorem onCourse_run {desktopId : String} {now : Nat} {s : State} {turns : List Turn}
    (h : OnCourse child δ bound now s []) (hpaced : Paced δ now turns)
    (hrefused : Runs.Along (Wrapper.step desktopId)
      (fun s t => t.waitFails = false ∧ ∀ child, s.phase = .polling child → Says false t.answer)
      s turns) :
    OnCourse child δ bound (lastTurn now turns) (Runs.run (Wrapper.step desktopId) s turns)
      (Runs.written (Wrapper.step desktopId) (out desktopId) s turns) := by
  induction turns using List.reverseRecOn with
  | nil => exact h
  | append_singleton turns t ih =>
      obtain ⟨hpaced, -, hlate⟩ := paced_concat.mp hpaced
      obtain ⟨hrefused, hwait, hpoll⟩ := (Runs.along_concat s turns t).mp hrefused
      rw [lastTurn_concat, Runs.run_concat, Runs.written_concat]
      exact (ih hpaced hrefused).step hwait hlate hpoll

end OnCourse

/-- A process in its loop whose polls are refused from `now` on. -/
theorem cut_off {desktopId : String} {s : State} {child : UInt32} {lastPoll now δ : Nat}
    {turns : List Turn}
    (hphase : s.phase = .watching child lastPoll ∨ s.phase = .running child lastPoll)
    (hlast : lastPoll ≤ now) (hpaced : Paced δ now turns)
    (hrefused : Runs.Along (Wrapper.step desktopId)
      (fun s t => t.waitFails = false ∧ ∀ child, s.phase = .polling child → Says false t.answer)
      s turns) :
    OnCourse child δ (now + pollInterval) (lastTurn now turns)
      (Runs.run (Wrapper.step desktopId) s turns)
      (Runs.written (Wrapper.step desktopId) (out desktopId) s turns) := by
  refine onCourse_run (.inr (.inl ?_)) hpaced hrefused
  rcases hphase with hphase | hphase <;> rw [hphase]
  · exact ⟨rfl, by omega, by omega⟩
  · exact ⟨rfl, by omega, by omega⟩

end Wrapper

/-! ### In the kiosk -/

namespace Kiosk

/-- In this move the app is not allowed any longer: if the process polls, the daemon
answers, and in the state it is in it refuses the app. -/
def Refuses (p : Platform) (i : Nat) (k : Kiosk) : Move → Prop
  | .turn j t env fate => j = i → t.waitFails = false ∧
      ∀ proc child, k.processes[i]? = some proc → proc.state.phase = .polling child →
        fate = .answered ∧ (checkAllowed p env k.daemon proc.desktopId).allowed = false
  | _ => True

/-- What the daemon refuses, the process is told. -/
theorem refused_of_refuses {p : Platform} {k : Kiosk} {i : Nat} {proc : Process} {m : Move}
    (hproc : k.processes[i]? = some proc) (h : Refuses p i k m) :
    Runs.Along (Wrapper.step proc.desktopId)
      (fun s t => t.waitFails = false ∧
        ∀ child, s.phase = .polling child → Wrapper.Says false t.answer)
      proc.state (turnIn p i k m) := by
  cases m with
  | daemon env e => trivial
  | launch desktopId => trivial
  | turn j t env fate =>
      rw [turnIn]
      split
      next hj =>
        subst hj
        obtain ⟨hwait, hpolls⟩ := h rfl
        refine ⟨⟨?_, fun child hphase => ?_⟩, trivial⟩
        · obtain ⟨a, ha⟩ := answered_eq p k j t env fate
          rw [ha]
          exact hwait
        · obtain ⟨rfl, hno⟩ := hpolls proc child hproc hphase
          have hasked : k.asked j t = some (.wrapperPoll proc.desktopId child) := by
            rw [asked, hproc, Option.bind_some, hphase]
            rfl
          rw [answered, hasked]
          exact (says_checkAllowed_iff _ false).mpr hno
      next => trivial

theorem refused_run {p : Platform} {k : Kiosk} {i : Nat} {proc : Process} {moves : List Move}
    (hproc : k.processes[i]? = some proc) (h : Runs.Along (step p) (Refuses p i) k moves) :
    Runs.Along (Wrapper.step proc.desktopId)
      (fun s t => t.waitFails = false ∧
        ∀ child, s.phase = .polling child → Wrapper.Says false t.answer)
      proc.state (turns p i k moves) := by
  induction moves using List.reverseRecOn with
  | nil => trivial
  | append_singleton moves m ih =>
      obtain ⟨hmoves, hm⟩ := (Runs.along_concat k moves m).mp h
      rw [turns_concat, Runs.along_append]
      exact ⟨ih hmoves, refused_of_refuses (process_run p hproc moves) hm⟩

/-- **A refused app is cut off in time.** From some instant on a process that has been
watching its app polls a daemon that refuses it. Whatever the others do: once its turns have
passed the poll interval and three more steps, the app has been told to end or has ended,
and once they have passed the grace period and two more, it has been killed or has ended. -/
theorem cut_off_in_time (p : Platform) {k : Kiosk} {i : Nat} {proc : Process} {child : UInt32}
    {lastPoll now δ : Nat} {moves : List Move} (hproc : k.processes[i]? = some proc)
    (hphase : proc.state.phase = .watching child lastPoll ∨
      proc.state.phase = .running child lastPoll)
    (hlast : lastPoll ≤ now) (hrefuses : Runs.Along (step p) (Refuses p i) k moves)
    (hpaced : Wrapper.Paced δ now (turns p i k moves)) :
    let ended := ((run p k moves).processes[i]?.bind fun proc => proc.state.gone).isSome
    let es := Runs.written (Wrapper.step proc.desktopId) (Wrapper.out proc.desktopId) proc.state
      (turns p i k moves)
    let last := Wrapper.lastTurn now (turns p i k moves)
    (now + Wrapper.pollInterval + 3 * δ < last → ended ∨ .signalled child .term ∈ es) ∧
      (now + Wrapper.pollInterval + Wrapper.killGrace + 5 * δ < last →
        ended ∨ .signalled child .kill ∈ es) := by
  intro ended es last
  have hrun := Wrapper.cut_off hphase hlast hpaced (refused_run hproc hrefuses)
  have hended : ended = (Runs.run (Wrapper.step proc.desktopId) proc.state
      (turns p i k moves)).gone.isSome := by
    simp only [ended, process_run p hproc moves, Option.bind_some]
  rw [hended]
  exact ⟨hrun.told, hrun.killed⟩

/-- A game that is on no list any more, fifteen seconds after its last poll. -/
def orphanedGame : Kiosk where
  daemon := sampleState
  processes := [⟨"klettres", ⟨.running 4711 0, none⟩⟩]

def orphanedMoves : List Move :=
  [.turn 0 (letterTurn 15) sampleEnv .answered, .turn 0 (letterTurn 15) sampleEnv .answered,
    .turn 0 (letterTurn 16) sampleEnv .answered, .turn 0 (letterTurn 21) sampleEnv .answered,
    .turn 0 (letterTurn 21) sampleEnv .answered]

theorem cut_off_in_time_orphaned :
    let k := orphanedGame
    let ended := ((run samplePlatform k orphanedMoves).processes[0]?.bind fun proc =>
      proc.state.gone).isSome
    let ts := turns samplePlatform 0 k orphanedMoves
    let es := Runs.written (Wrapper.step "klettres") (Wrapper.out "klettres")
      ⟨.running 4711 0, none⟩ ts
    let last := Wrapper.lastTurn 15000000000 ts
    (15000000000 + Wrapper.pollInterval + 3 * 5000000000 < last →
        ended ∨ .signalled 4711 .term ∈ es) ∧
      (15000000000 + Wrapper.pollInterval + Wrapper.killGrace + 5 * 5000000000 < last →
        ended ∨ .signalled 4711 .kill ∈ es) := by
  have hrefused : ∀ s : State, s.config = sampleState.config → ∀ env app,
      (checkAllowed samplePlatform env s app).allowed = false := by
    intro s hconfig env app
    rw [checkAllowed, hconfig]
    rfl
  refine @cut_off_in_time samplePlatform orphanedGame 0 ⟨"klettres", ⟨.running 4711 0, none⟩⟩ 4711
    0 15000000000 5000000000 orphanedMoves rfl (.inr rfl) (by decide) ?_ ?_
  · have hanswered : ∀ {k : Kiosk} {t}, k.daemon.config = sampleState.config →
        t.waitFails = false → Refuses samplePlatform 0 k (.turn 0 t sampleEnv .answered) :=
      fun hconfig hwait _ => ⟨hwait, fun proc _ _ _ => ⟨rfl, hrefused _ hconfig _ _⟩⟩
    exact ⟨hanswered rfl rfl, hanswered rfl rfl, hanswered rfl rfl, hanswered rfl rfl,
      hanswered rfl rfl, trivial⟩
  · decide +kernel

end Kiosk

end OmarchyKids
