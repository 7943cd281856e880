import OmarchyKids.Wrapper.Main

/-!
# OmarchyKids.Wrapper.Course

What the runs of `omarchy-kids-run` look like, whatever the daemon answers and
whenever the app ends.

Each fact is an invariant that ties the phase to the events so far: the messages
(`exec_said`), the authorisation (`exec_cleared`), the app's end (`exec_gone`) and
the refused poll (`exec_refused`). `wrapper_follows_protocol` puts them together.
-/

namespace OmarchyKids

namespace Wrapper

/-! ### Views of the events -/

def requests (es : List Event) : List Request :=
  es.filterMap fun
    | .sent req _ => some req
    | _ => none

/-- The processes started. -/
def children (es : List Event) : List UInt32 :=
  es.filterMap fun
    | .spawned _ child => some child
    | _ => none

/-- What the program does itself. -/
def own (es : List Event) : List Event :=
  es.filter fun
    | .exited _ => false
    | _ => true

theorem requests_append (es fs : List Event) : requests (es ++ fs) = requests es ++ requests fs :=
  List.filterMap_append

theorem children_append (es fs : List Event) : children (es ++ fs) = children es ++ children fs :=
  List.filterMap_append

theorem own_append (es fs : List Event) : own (es ++ fs) = own es ++ own fs :=
  List.filter_append _ _

/-- The app's own event, if there is one, is its end. -/
theorem exitAt_cases (s : State) (t : Turn) :
    s.exitAt t = [] ∨ ∃ status, s.exitAt t = [.exited status] := by
  unfold State.exitAt
  split
  · cases s.goneAt t with
    | none => exact .inl rfl
    | some status => exact .inr ⟨status, rfl⟩
  · exact .inl rfl

@[simp] theorem requests_exitAt (s : State) (t : Turn) : requests (s.exitAt t) = [] := by
  rcases exitAt_cases s t with h | ⟨status, h⟩ <;> rw [h] <;> rfl

@[simp] theorem children_exitAt (s : State) (t : Turn) : children (s.exitAt t) = [] := by
  rcases exitAt_cases s t with h | ⟨status, h⟩ <;> rw [h] <;> rfl

@[simp] theorem own_exitAt (s : State) (t : Turn) : own (s.exitAt t) = [] := by
  rcases exitAt_cases s t with h | ⟨status, h⟩ <;> rw [h] <;> rfl

theorem requests_out (desktopId : String) (s : State) (t : Turn) :
    requests (out desktopId s t) = requests (act desktopId (s.goneAt t) t s.phase).2 := by
  rw [out, requests_append, requests_exitAt, List.nil_append]

theorem children_out (desktopId : String) (s : State) (t : Turn) :
    children (out desktopId s t) = children (act desktopId (s.goneAt t) t s.phase).2 := by
  rw [out, children_append, children_exitAt, List.nil_append]

/-! ### The messages -/

/-- The messages of a session, up to the last poll so far. -/
def opening (desktopId : String) (child : UInt32) (polls : Nat) : List Request :=
  .wrapperAuthorize desktopId :: .wrapperStart desktopId child ::
    List.replicate polls (.wrapperPoll desktopId child)

theorem opening_succ (desktopId : String) (child : UInt32) (polls : Nat) :
    opening desktopId child polls ++ [.wrapperPoll desktopId child] =
      opening desktopId child (polls + 1) := by
  rw [opening, opening, List.replicate_succ']
  rfl

/-- All of them. -/
def conversation (desktopId : String) (child : UInt32) (polls : Nat) (exitCode : Option Int) :
    List Request :=
  opening desktopId child polls ++ [.wrapperStop desktopId child exitCode]

/-- The messages sent and the processes started by the time of a phase. -/
def Said (desktopId : String) (reqs : List Request) (started : List UInt32) : Phase → Prop
  | .authorizing => reqs = [] ∧ started = []
  | .launching => reqs = [.wrapperAuthorize desktopId] ∧ started = []
  | .starting child => reqs = [.wrapperAuthorize desktopId] ∧ started = [child]
  | .watching child _ | .running child _ | .polling child | .terminating child | .waiting child _
  | .killing child | .reaping child | .stopping child =>
      (∃ polls, reqs = opening desktopId child polls) ∧ started = [child]
  | .done code =>
      code = 1 ∧ reqs = [.wrapperAuthorize desktopId] ∧ started = [] ∨
        code = 0 ∧ ∃ child polls exitCode,
          reqs = conversation desktopId child polls exitCode ∧ started = [child]

/-- At any time the messages are the beginning of a whole conversation. -/
theorem Said.cases {desktopId : String} {reqs : List Request} {started : List UInt32}
    {phase : Phase} (h : Said desktopId reqs started phase) :
    started = [] ∧ reqs <+: [.wrapperAuthorize desktopId] ∨
      ∃ child, started = [child] ∧
        ∃ polls exitCode, reqs <+: conversation desktopId child polls exitCode := by
  cases phase with
  | authorizing =>
      obtain ⟨rfl, rfl⟩ := h
      exact .inl ⟨rfl, List.nil_prefix⟩
  | launching =>
      obtain ⟨rfl, rfl⟩ := h
      exact .inl ⟨rfl, List.prefix_rfl⟩
  | starting child =>
      obtain ⟨rfl, rfl⟩ := h
      exact .inr ⟨child, rfl, 0, none, List.prefix_append _ _⟩
  | done code =>
      rcases h with ⟨-, rfl, rfl⟩ | ⟨-, child, polls, exitCode, rfl, rfl⟩
      · exact .inl ⟨rfl, List.prefix_rfl⟩
      · exact .inr ⟨child, rfl, polls, exitCode, List.prefix_rfl⟩
  | watching | running | polling | terminating | waiting | killing | reaping | stopping =>
      obtain ⟨⟨polls, rfl⟩, rfl⟩ := h
      exact .inr ⟨_, rfl, polls, none, List.prefix_append _ _⟩

theorem said_act (desktopId : String) (gone : Option ExitStatus) (t : Turn) {phase : Phase}
    {reqs : List Request} {started : List UInt32} (h : Said desktopId reqs started phase) :
    Said desktopId (reqs ++ requests (act desktopId gone t phase).2)
      (started ++ children (act desktopId gone t phase).2) (act desktopId gone t phase).1 := by
  cases phase with
  | authorizing =>
      obtain ⟨rfl, rfl⟩ := h
      rw [act]
      split
      · exact ⟨rfl, rfl⟩
      · exact .inl ⟨rfl, rfl, rfl⟩
  | launching =>
      obtain ⟨rfl, rfl⟩ := h
      rw [act]
      split
      · exact ⟨rfl, rfl⟩
      · exact .inl ⟨rfl, rfl, rfl⟩
  | starting child =>
      obtain ⟨rfl, rfl⟩ := h
      exact ⟨⟨0, rfl⟩, rfl⟩
  | polling child =>
      obtain ⟨⟨polls, rfl⟩, rfl⟩ := h
      rw [act]
      split
      · exact ⟨⟨polls + 1, opening_succ desktopId child polls⟩, rfl⟩
      · exact ⟨⟨polls + 1, opening_succ desktopId child polls⟩, rfl⟩
  | stopping child =>
      obtain ⟨⟨polls, rfl⟩, rfl⟩ := h
      exact .inr ⟨rfl, child, polls, _, rfl, rfl⟩
  -- the other phases send nothing
  | done | terminating | killing => simpa [act, requests, children, Said] using h
  | watching =>
      rw [act]
      split <;> simpa [requests, children, Said] using h
  | running =>
      rw [act]
      split <;> simpa [requests, children, Said] using h
  | waiting =>
      rw [act]
      split
      · split <;> simpa [requests, children, Said] using h
      · simpa [requests, children, Said] using h
  | reaping =>
      rw [act]
      split <;> simpa [requests, children, Said] using h

theorem exec_said (desktopId : String) (turns : List Turn) :
    Said desktopId (requests (events desktopId turns)) (children (events desktopId turns))
      (exec desktopId turns).phase := by
  induction turns using List.reverseRecOn with
  | nil => exact ⟨rfl, rfl⟩
  | append_singleton turns t ih =>
      rw [exec_concat, events_concat, requests_append, children_append, requests_out, children_out]
      exact said_act desktopId _ t ih

/-! ### What was heard before an event -/

/-- The phase in which the program causes an event. -/
def CausedIn (phase : Phase) (t : Turn) : Event → Prop
  | .sent (.wrapperPoll _ child) a => phase = .polling child ∧ a = t.answer
  | .sent (.wrapperStop _ child _) _ => phase = .stopping child
  | .sent _ _ => True
  | .spawned _ _ => phase = .launching
  | .signalled child _ => phase = .terminating child ∨ phase = .killing child
  | .exited _ => False

theorem causedIn_of_mem_act {desktopId : String} {gone : Option ExitStatus} {t : Turn}
    {phase : Phase} {e : Event} (h : e ∈ (act desktopId gone t phase).2) : CausedIn phase t e := by
  cases phase with
  | launching =>
      rw [act] at h
      split at h
      · rw [List.mem_singleton.mp h]
        rfl
      · cases h
  | watching | running | waiting | reaping | done => cases h
  | authorizing | starting =>
      rw [List.mem_singleton.mp h]
      trivial
  | polling =>
      rw [List.mem_singleton.mp h]
      exact ⟨rfl, rfl⟩
  | terminating =>
      rw [List.mem_singleton.mp h]
      exact .inl rfl
  | killing =>
      rw [List.mem_singleton.mp h]
      exact .inr rfl
  | stopping =>
      rw [List.mem_singleton.mp h]
      rfl

theorem mem_exitAt {s : State} {t : Turn} {e : Event} (h : e ∈ s.exitAt t) :
    ∃ status, e = .exited status := by
  rcases exitAt_cases s t with hnone | ⟨status, hexit⟩
  · rw [hnone] at h
    cases h
  · rw [hexit, List.mem_singleton] at h
    exact ⟨status, h⟩

theorem length_act (desktopId : String) (gone : Option ExitStatus) (t : Turn) (phase : Phase) :
    (act desktopId gone t phase).2.length ≤ 1 := by
  cases phase with
  | launching =>
      rw [act]
      split <;> simp
  | _ => simp [act]

/-- A turn ends with the program's own event. -/
theorem out_split {desktopId : String} {s : State} {t : Turn} {out₁ out₂ : List Event} {e : Event}
    (h : out desktopId s t = out₁ ++ e :: out₂) (hown : ∀ status, e ≠ .exited status) :
    CausedIn s.phase t e ∧ out₂ = [] := by
  have hact : e ∈ (act desktopId (s.goneAt t) t s.phase).2 := by
    have hmem : e ∈ out desktopId s t := by simp [h]
    rcases List.mem_append.mp hmem with hexit | hact
    · obtain ⟨status, rfl⟩ := mem_exitAt hexit
      exact absurd rfl (hown status)
    · exact hact
  refine ⟨causedIn_of_mem_act hact, ?_⟩
  obtain ⟨e', he'⟩ := List.length_eq_one_iff.mp
    (le_antisymm (length_act desktopId _ t _) (List.length_pos_of_mem hact))
  rw [out, he'] at h
  -- otherwise it would stand among the app's own events
  rcases List.eq_nil_or_concat out₂ with rfl | ⟨rest, last, rfl⟩
  · rfl
  · rw [List.concat_eq_append, ← List.cons_append, ← List.append_assoc] at h
    have hexit : e ∈ s.exitAt t := by simp [(List.append_inj' h rfl).1]
    obtain ⟨status, rfl⟩ := mem_exitAt hexit
    exact absurd rfl (hown status)

/-- An event of the program belongs to a turn, which ends with it; what happened
before the turn came before it. -/
theorem events_split {desktopId : String} {turns : List Turn} {before after : List Event}
    {e : Event} (h : events desktopId turns = before ++ e :: after)
    (hown : ∀ status, e ≠ .exited status) :
    ∃ turns₁ t turns₂, turns = turns₁ ++ t :: turns₂ ∧
      CausedIn (exec desktopId turns₁).phase t e ∧
      (∀ e' ∈ events desktopId turns₁, e' ∈ before) ∧
      after = Runs.written (step desktopId) (out desktopId) (exec desktopId (turns₁ ++ [t]))
        turns₂ := by
  obtain ⟨turns₁, t, turns₂, out₁, out₂, rfl, hout, rfl, rfl⟩ := Runs.written_split h
  obtain ⟨hcaused, rfl⟩ := out_split hout hown
  exact ⟨turns₁, t, turns₂, rfl, hcaused, fun e' he' => List.mem_append_left _ he', rfl⟩

/-- The answers that lead to a phase. -/
def Heard (desktopId : String) (es : List Event) : Phase → Prop
  | .launching => ∃ a, Says true a ∧ .sent (.wrapperAuthorize desktopId) a ∈ es
  | .terminating child | .waiting child _ | .killing child | .reaping child =>
      ∃ a, Says false a ∧ .sent (.wrapperPoll desktopId child) a ∈ es
  | _ => True

theorem Heard.append {desktopId : String} {es : List Event} {phase : Phase}
    (h : Heard desktopId es phase) (more : List Event) : Heard desktopId (es ++ more) phase := by
  cases phase with
  | launching | terminating | waiting | killing | reaping =>
      obtain ⟨a, hanswer, hmem⟩ := h
      exact ⟨a, hanswer, List.mem_append_left _ hmem⟩
  | _ => trivial

theorem heard_act (desktopId : String) (gone : Option ExitStatus) (t : Turn) {phase : Phase}
    {es : List Event} (h : Heard desktopId es phase) :
    Heard desktopId (es ++ (act desktopId gone t phase).2) (act desktopId gone t phase).1 := by
  cases phase with
  | authorizing =>
      rw [act]
      split
      next hyes => exact ⟨t.answer, authorize_eq_true_iff.mp hyes, by simp⟩
      next => trivial
  | launching =>
      rw [act]
      split <;> trivial
  | polling child =>
      rw [act]
      split
      next => trivial
      next hno =>
        rw [Bool.not_eq_true, stillAllowed_eq_false_iff] at hno
        exact ⟨t.answer, hno, by simp⟩
  | watching | running =>
      rw [act]
      split <;> trivial
  | waiting child deadline =>
      have hkept := h.append (act desktopId gone t (.waiting child deadline)).2
      rw [act] at hkept ⊢
      split
      · split
        · trivial
        · exact hkept
      · exact hkept
  | reaping child =>
      have hkept := h.append (act desktopId gone t (.reaping child)).2
      rw [act] at hkept ⊢
      split
      · trivial
      · exact hkept
  | terminating | killing => exact h.append _
  | starting | stopping | done => trivial

theorem exec_heard (desktopId : String) (turns : List Turn) :
    Heard desktopId (events desktopId turns) (exec desktopId turns).phase := by
  induction turns using List.reverseRecOn with
  | nil => trivial
  | append_singleton turns t ih =>
      rw [exec_concat, events_concat, out, ← List.append_assoc]
      exact heard_act desktopId _ t (ih.append _)

/-! ### The end of the app -/

/-- Where the program acts on the app's end, the app has ended. -/
def Noticed (gone : Option ExitStatus) : Phase → Prop
  | .stopping _ => gone.isSome
  | .done code => code = 0 → gone.isSome
  | _ => True

theorem noticed_act (desktopId : String) {gone : Option ExitStatus} {t : Turn}
    (hwait : t.waitFails = false) {phase : Phase} (h : Noticed gone phase) :
    Noticed gone (act desktopId gone t phase).1 := by
  cases phase with
  | authorizing | launching =>
      rw [act]
      split
      · trivial
      · exact fun hcode => absurd hcode (by decide)
  | watching | reaping =>
      rw [act]
      split
      next hgone =>
        rw [hwait, Bool.false_or] at hgone
        exact hgone
      next => trivial
  | waiting =>
      rw [act]
      split
      · split
        next hgone =>
          rw [hwait, Bool.not_false, Bool.true_and] at hgone
          exact hgone
        next => trivial
      · trivial
  | running | polling =>
      rw [act]
      split <;> trivial
  | starting | terminating | killing => trivial
  | stopping => exact fun _ => h
  | done => exact h

theorem Noticed.mono {gone gone' : Option ExitStatus} {phase : Phase} (h : Noticed gone phase)
    (hgone : gone.isSome → gone'.isSome) : Noticed gone' phase := by
  cases phase with
  | stopping => exact hgone h
  | done => exact fun hcode => hgone (h hcode)
  | _ => trivial

/-- The program keeps its process until it is done. -/
theorem child_act (desktopId : String) (gone : Option ExitStatus) (t : Turn) {phase : Phase}
    (h : phase.child.isSome ∨ phase = .done 0) :
    (act desktopId gone t phase).1.child.isSome ∨ (act desktopId gone t phase).1 = .done 0 := by
  rcases h with h | rfl
  · cases phase with
    | authorizing | launching | done => cases h
    | stopping => exact .inr rfl
    | starting | terminating | killing => exact .inl rfl
    | watching | running | polling | reaping =>
        rw [act]
        split <;> exact .inl rfl
    | waiting =>
        rw [act]
        split
        · split <;> exact .inl rfl
        · exact .inl rfl
  · exact .inr rfl

theorem isSome_goneAt {s : State} (h : s.gone.isSome) (t : Turn) : (s.goneAt t).isSome := by
  unfold State.goneAt
  split
  · rw [Option.isSome_or, h]
    rfl
  · exact h

/-- The app's end is among the events, comes only while the program has a process
and is there where the program acts on it. -/
theorem exec_gone {desktopId : String} {turns : List Turn}
    (hwait : ∀ t ∈ turns, t.waitFails = false) :
    ((exec desktopId turns).gone.isSome →
      (∃ status, .exited status ∈ events desktopId turns) ∧
        ((exec desktopId turns).phase.child.isSome ∨ (exec desktopId turns).phase = .done 0)) ∧
      Noticed (exec desktopId turns).gone (exec desktopId turns).phase := by
  induction turns using List.reverseRecOn with
  | nil => exact ⟨fun h => absurd h Bool.false_ne_true, trivial⟩
  | append_singleton turns t ih =>
      obtain ⟨hheld, hnoticed⟩ := ih fun t' ht' => hwait t' (List.mem_append_left _ ht')
      rw [exec_concat, events_concat]
      generalize exec desktopId turns = s at hheld hnoticed ⊢
      have hgone : s.gone.isSome → (s.goneAt t).isSome := fun h => isSome_goneAt h t
      refine ⟨fun h => ?_, noticed_act desktopId (hwait t (by simp)) (hnoticed.mono hgone)⟩
      cases hbefore : s.gone.isSome with
      | true =>
          obtain ⟨⟨status, hmem⟩, hphase⟩ := hheld hbefore
          exact ⟨⟨status, List.mem_append_left _ hmem⟩, child_act desktopId _ t hphase⟩
      | false =>
          -- it ends in this turn
          have hnone : s.gone.isNone = true := by simpa using hbefore
          obtain ⟨status, hstatus⟩ := Option.isSome_iff_exists.mp h
          change s.goneAt t = some status at hstatus
          have hchild : s.phase.child.isSome := by
            by_contra hchild
            rw [State.goneAt, if_neg hchild, Option.isNone_iff_eq_none.mp hnone] at hstatus
            cases hstatus
          refine ⟨⟨status, List.mem_append_right _ (List.mem_append_left _ ?_)⟩,
            child_act desktopId _ t (.inl hchild)⟩
          rw [State.exitAt, if_pos hnone, hstatus]
          exact List.mem_singleton_self _

/-! ### Progress -/

/-- How many turns are left at most once the app has ended. -/
def turnsLeft : Phase → Nat
  | .authorizing => 9
  | .launching => 8
  | .running _ _ => 7
  | .polling _ => 6
  | .terminating _ => 5
  | .waiting _ _ => 4
  | .starting _ | .killing _ => 3
  | .watching _ _ | .reaping _ => 2
  | .stopping _ => 1
  | .done _ => 0

theorem turnsLeft_le (phase : Phase) : turnsLeft phase ≤ 9 := by
  cases phase <;> simp [turnsLeft]

theorem turnsLeft_act (desktopId : String) {gone : Option ExitStatus} (hgone : gone.isSome)
    {t : Turn} (hwait : t.waitFails = false) (phase : Phase) :
    turnsLeft (act desktopId gone t phase).1 ≤ turnsLeft phase - 1 := by
  cases phase with
  | authorizing | launching | running | polling =>
      rw [act]
      split <;> simp [turnsLeft]
  | watching | reaping => simp [act, hgone, turnsLeft]
  | waiting =>
      rw [act]
      split <;> simp [hgone, hwait, turnsLeft]
  | starting | terminating | killing | stopping | done => simp [act, turnsLeft]

/-- Once the app has ended, so does the program. -/
theorem turnsLeft_exec {desktopId : String} {turns more : List Turn}
    (hwait : ∀ t ∈ more, t.waitFails = false) (hgone : (exec desktopId turns).gone.isSome) :
    (exec desktopId (turns ++ more)).gone.isSome ∧
      turnsLeft (exec desktopId (turns ++ more)).phase ≤
        turnsLeft (exec desktopId turns).phase - more.length := by
  induction more using List.reverseRecOn with
  | nil => simpa using hgone
  | append_singleton more t ih =>
      obtain ⟨hstill, hleft⟩ := ih fun t' ht' => hwait t' (List.mem_append_left _ ht')
      rw [← List.append_assoc, exec_concat]
      refine ⟨isSome_goneAt hstill t, ?_⟩
      have hstep := turnsLeft_act desktopId (isSome_goneAt hstill t) (hwait t (by simp))
        (exec desktopId (turns ++ more)).phase
      rw [List.length_append, List.length_singleton]
      show turnsLeft (act desktopId _ t _).1 ≤ _
      omega

/-! ### After a refused poll -/

/-- The program is on its way out. -/
def Closing : Phase → Prop
  | .terminating _ | .waiting _ _ | .killing _ | .reaping _ | .stopping _ | .done _ => True
  | _ => False

theorem closing_act (desktopId : String) (gone : Option ExitStatus) (t : Turn) {phase : Phase}
    (h : Closing phase) : Closing (act desktopId gone t phase).1 := by
  cases phase with
  | authorizing | launching | starting | watching | running | polling => cases h
  | terminating | killing | stopping | done => trivial
  | reaping =>
      rw [act]
      split <;> trivial
  | waiting =>
      rw [act]
      split
      · split <;> trivial
      · trivial

theorem phase_of_refused {desktopId : String} {child : UInt32} {turns : List Turn} {t : Turn}
    (hphase : (exec desktopId turns).phase = .polling child) (hanswer : Says false t.answer) :
    (exec desktopId (turns ++ [t])).phase = .terminating child := by
  rw [exec_concat, step, hphase, act, stillAllowed_eq_false_iff.mpr hanswer]
  rfl

/-- No poll follows. -/
theorem poll_notMem_of_closing {desktopId : String} {s : State} (h : Closing s.phase)
    (turns : List Turn) (child : UInt32) (a : Answer) :
    Event.sent (.wrapperPoll desktopId child) a ∉
      Runs.written (step desktopId) (out desktopId) s turns := by
  induction turns generalizing s with
  | nil => exact List.not_mem_nil
  | cons t turns ih =>
      rw [Runs.written_cons, List.mem_append, not_or]
      refine ⟨fun hmem => ?_, ih (closing_act desktopId _ t h)⟩
      obtain ⟨out₁, out₂, hout⟩ := List.append_of_mem hmem
      have hphase := (out_split hout fun status => Event.noConfusion).1.1
      rw [hphase] at h
      exact h

/-- The app has ended or has been killed. -/
def Struck (child : UInt32) (s : State) (es : List Event) : Prop :=
  s.gone.isSome ∨ .signalled child .kill ∈ es

theorem Struck.step {desktopId : String} {child : UInt32} {s : State} {es : List Event}
    (h : Struck child s es) (t : Turn) :
    Struck child (step desktopId s t) (es ++ out desktopId s t) :=
  h.imp (fun hgone => isSome_goneAt hgone t) fun hmem => List.mem_append_left _ hmem

theorem Struck.append {desktopId : String} {child : UInt32} {turns : List Turn}
    (h : Struck child (exec desktopId turns) (events desktopId turns)) (more : List Turn) :
    Struck child (exec desktopId (turns ++ more)) (events desktopId (turns ++ more)) := by
  induction more using List.reverseRecOn with
  | nil => simpa using h
  | append_singleton more t ih =>
      rw [← List.append_assoc, exec_concat, events_concat]
      exact ih.step t

theorem struck_of_killing {desktopId : String} {child : UInt32} {s : State}
    (h : s.phase = .killing child) (es : List Event) (t : Turn) :
    Struck child (step desktopId s t) (es ++ out desktopId s t) := by
  refine .inr (List.mem_append_right _ (List.mem_append_right _ ?_))
  rw [h]
  exact List.mem_singleton_self _

/-- It has, or it will. -/
def Doomed (child : UInt32) (deadline : Nat) (s : State) (es : List Event) : Prop :=
  Struck child s es ∨ s.phase = .waiting child deadline ∨ s.phase = .killing child

theorem Doomed.step {desktopId : String} {child : UInt32} {deadline : Nat} {s : State}
    {es : List Event} (h : Doomed child deadline s es) (t : Turn) :
    Doomed child deadline (step desktopId s t) (es ++ out desktopId s t) := by
  rcases h with hstruck | hwaiting | hkilling
  · exact .inl (hstruck.step t)
  · by_cases hgone : (s.goneAt t).isSome
    · exact .inl (.inl hgone)
    · refine .inr ?_
      rw [Wrapper.step, hwaiting, act]
      by_cases hearly : t.now < deadline
      · simp [hearly, hgone]
      · simp [hearly]
  · exact .inl (struck_of_killing hkilling es t)

theorem Doomed.append {desktopId : String} {child : UInt32} {deadline : Nat} {turns : List Turn}
    (h : Doomed child deadline (exec desktopId turns) (events desktopId turns))
    (more : List Turn) :
    Doomed child deadline (exec desktopId (turns ++ more)) (events desktopId (turns ++ more)) := by
  induction more using List.reverseRecOn with
  | nil => simpa using h
  | append_singleton more t ih =>
      rw [← List.append_assoc, exec_concat, events_concat]
      exact ih.step t

/-- A turn after the deadline and one more. -/
theorem Doomed.struck {desktopId : String} {child : UInt32} {deadline : Nat} {turns : List Turn}
    (h : Doomed child deadline (exec desktopId turns) (events desktopId turns)) {late : Turn}
    (hlate : deadline ≤ late.now) (last : Turn) :
    Struck child (exec desktopId (turns ++ [late] ++ [last]))
      (events desktopId (turns ++ [late] ++ [last])) := by
  rw [exec_concat _ (turns ++ [late]), events_concat _ (turns ++ [late])]
  rw [exec_concat, events_concat]
  generalize exec desktopId turns = s at h ⊢
  rcases h with hstruck | hwaiting | hkilling
  · exact (hstruck.step late).step last
  · refine struck_of_killing ?_ _ last
    rw [Wrapper.step, hwaiting, act, if_neg (not_lt.mpr hlate)]
  · exact (struck_of_killing hkilling _ late).step last

/-- Whatever the daemon answers, an app that it refuses is told to end, and killed
if it has not ended five seconds later. -/
theorem struck_after_grace {desktopId : String} {child : UInt32} {turns rest more : List Turn}
    {t late last : Turn} (hphase : (exec desktopId turns).phase = .terminating child)
    (hlate : t.now + killGrace ≤ late.now) :
    Struck child (exec desktopId (turns ++ t :: (rest ++ late :: last :: more)))
      (events desktopId (turns ++ t :: (rest ++ late :: last :: more))) := by
  have hdoomed : Doomed child (t.now + killGrace) (exec desktopId (turns ++ [t]))
      (events desktopId (turns ++ [t])) := by
    refine .inr (.inl ?_)
    rw [exec_concat, step, hphase]
    rfl
  have hturns : turns ++ t :: (rest ++ late :: last :: more) =
      turns ++ [t] ++ rest ++ [late] ++ [last] ++ more := by simp
  rw [hturns]
  exact ((hdoomed.append rest).struck hlate last).append more

/-! ### The protocol -/

/-- How the wrapper behaves towards the daemon and the app. -/
structure FollowsProtocol (desktopId : String) (turns : List Turn) : Prop where
  /-- The app is started only after a yes to the question about it. -/
  cleared : ∀ before argv child after,
    events desktopId turns = before ++ .spawned argv child :: after →
      ∃ a, Says true a ∧ .sent (.wrapperAuthorize desktopId) a ∈ before
  /-- No app, no message but the question. -/
  notStarted : children (events desktopId turns) = [] →
    requests (events desktopId turns) <+: [.wrapperAuthorize desktopId]
  /-- One app, and its messages come in order. -/
  started : ∀ child ∈ children (events desktopId turns),
    children (events desktopId turns) = [child] ∧
      ∃ polls exitCode,
        requests (events desktopId turns) <+: conversation desktopId child polls exitCode
  /-- A finished program has sent all of them. -/
  finished : ∀ code, (exec desktopId turns).phase = .done code →
    children (events desktopId turns) = [] ∧
        requests (events desktopId turns) = [.wrapperAuthorize desktopId] ∨
      ∃ child polls exitCode, children (events desktopId turns) = [child] ∧
        requests (events desktopId turns) = conversation desktopId child polls exitCode
  /-- The last message is sent when the app is gone. -/
  stopped : ∀ before child exitCode a after,
    events desktopId turns = before ++ .sent (.wrapperStop desktopId child exitCode) a :: after →
      ∃ status, .exited status ∈ before
  /-- A refused poll is the last one, and the first signal follows it. -/
  refused : ∀ before child a after,
    events desktopId turns = before ++ .sent (.wrapperPoll desktopId child) a :: after →
      Says false a →
        (∀ child' a', .sent (.wrapperPoll desktopId child') a' ∉ after) ∧
          (own after = [] ∨ ∃ rest, own after = .signalled child .term :: rest)
  /-- Then the app ends by itself before the grace period does, or is killed. -/
  ended : ∀ turns₁ poll t rest late last more child,
    turns = turns₁ ++ poll :: t :: (rest ++ late :: last :: more) →
      (exec desktopId turns₁).phase = .polling child → Says false poll.answer →
        t.now + killGrace ≤ late.now →
          (exec desktopId turns).gone.isSome ∨ .signalled child .kill ∈ events desktopId turns
  /-- Nothing else makes the program signal the app. -/
  signalled : ∀ before child signal after,
    events desktopId turns = before ++ .signalled child signal :: after →
      ∃ a, Says false a ∧ .sent (.wrapperPoll desktopId child) a ∈ before
  /-- Soon after the app has ended, the program has finished. -/
  finishes : ∀ turns₁ more, turns = turns₁ ++ more → (exec desktopId turns₁).gone.isSome →
    9 ≤ more.length → (exec desktopId turns).phase = .done 0

/-- Whatever the daemon answers, whenever the app ends and however the clock goes, as
long as waiting on the app's process does not fail. -/
theorem wrapper_follows_protocol (desktopId : String) {turns : List Turn}
    (hwait : ∀ t ∈ turns, t.waitFails = false) : FollowsProtocol desktopId turns where
  cleared := by
    intro before argv child after h
    obtain ⟨turns₁, t, turns₂, rfl, hphase, hbefore, -⟩ := events_split h fun _ => Event.noConfusion
    have hheard := exec_heard desktopId turns₁
    rw [hphase] at hheard
    obtain ⟨a, hanswer, hmem⟩ := hheard
    exact ⟨a, hanswer, hbefore _ hmem⟩
  notStarted := by
    intro hnone
    rcases (exec_said desktopId turns).cases with ⟨-, hreqs⟩ | ⟨child, hchild, -⟩
    · exact hreqs
    · rw [hnone] at hchild
      cases hchild
  started := by
    intro child hmem
    rcases (exec_said desktopId turns).cases with ⟨hnone, -⟩ | ⟨child', hchild, hreqs⟩
    · rw [hnone] at hmem
      cases hmem
    · rw [hchild, List.mem_singleton] at hmem
      subst hmem
      exact ⟨hchild, hreqs⟩
  finished := by
    intro code hdone
    have hsaid := exec_said desktopId turns
    rw [hdone] at hsaid
    rcases hsaid with ⟨-, hreqs, hchildren⟩ | ⟨-, child, polls, exitCode, hreqs, hchildren⟩
    · exact .inl ⟨hchildren, hreqs⟩
    · exact .inr ⟨child, polls, exitCode, hchildren, hreqs⟩
  stopped := by
    intro before child exitCode a after h
    obtain ⟨turns₁, t, turns₂, rfl, hphase, hbefore, -⟩ := events_split h fun _ => Event.noConfusion
    obtain ⟨hheld, hnoticed⟩ := @exec_gone desktopId turns₁
      fun t' ht' => hwait t' (List.mem_append_left _ ht')
    rw [hphase] at hnoticed
    obtain ⟨⟨status, hmem⟩, -⟩ := hheld hnoticed
    exact ⟨status, hbefore _ hmem⟩
  refused := by
    intro before child a after h hanswer
    obtain ⟨turns₁, t, turns₂, rfl, ⟨hphase, rfl⟩, -, rfl⟩ :=
      events_split h fun _ => Event.noConfusion
    have hnext := phase_of_refused hphase hanswer
    refine ⟨fun child' a' => poll_notMem_of_closing ?_ turns₂ child' a', ?_⟩
    · rw [hnext]
      trivial
    · cases turns₂ with
      | nil => exact .inl rfl
      | cons t' turns₂ =>
          generalize exec desktopId (turns₁ ++ [t]) = s at hnext
          refine .inr ⟨own (Runs.written (step desktopId) (out desktopId)
            (step desktopId s t') turns₂), ?_⟩
          rw [Runs.written_cons, own_append, out, own_append, own_exitAt, hnext]
          rfl
  ended := by
    rintro turns₁ poll t rest late last more child rfl hphase hanswer hlate
    rw [← List.singleton_append, ← List.append_assoc]
    exact struck_after_grace (phase_of_refused hphase hanswer) hlate
  signalled := by
    intro before child signal after h
    obtain ⟨turns₁, t, turns₂, rfl, hphase, hbefore, -⟩ := events_split h fun _ => Event.noConfusion
    have hheard := exec_heard desktopId turns₁
    rcases hphase with hphase | hphase
    all_goals
      rw [hphase] at hheard
      obtain ⟨a, hanswer, hmem⟩ := hheard
      exact ⟨a, hanswer, hbefore _ hmem⟩
  finishes := by
    rintro turns₁ more rfl hgone hmore
    obtain ⟨hstill, hleft⟩ := turnsLeft_exec
      (fun t ht => hwait t (List.mem_append_right _ ht)) hgone
    have hbound := turnsLeft_le (exec desktopId turns₁).phase
    have hzero : turnsLeft (exec desktopId (turns₁ ++ more)).phase = 0 := by omega
    rcases ((exec_gone hwait).1 hstill).2 with hchild | hdone
    · cases hphase : (exec desktopId (turns₁ ++ more)).phase with
      | done code =>
          rw [hphase] at hchild
          cases hchild
      | _ =>
          rw [hphase] at hzero
          cases hzero
    · exact hdone

/-- A game that the second poll cuts short; the first one did not get through. -/
def cutShort : List Turn :=
  let installed : Fs :=
    ⟨fun path => path == "/usr/share/applications/klettres.desktop",
      fun _ => some "[Desktop Entry]\nName=KLettres\nExec=klettres %u\n"⟩
  let turn (seconds : Nat) (exit : Option ExitStatus) (answer : Answer) : Turn :=
    ⟨seconds * 1000000000, exit, false, answer, installed, fun _ => .ok 4711⟩
  let reply (allowed : Bool) : Answer := .ok (.okWith (AllowedPayload.mk allowed none).toValue)
  [turn 0 none (reply true), turn 0 none (reply true), turn 0 none (.error .noResponse),
    turn 10 none (reply true), turn 15 none (reply true),
    turn 15 none (.error (.connect "Connection refused")), turn 30 none (reply true),
    turn 30 none (reply true), turn 30 none (reply false), turn 30 none (reply true),
    turn 31 (some (.signaled 15)) (reply true), turn 31 none (.ok .okEmpty)]

theorem cutShort_follows_protocol :
    FollowsProtocol "klettres" cutShort ∧ (exec "klettres" cutShort).phase = .done 0 :=
  ⟨wrapper_follows_protocol "klettres" (by decide), by decide +kernel⟩

end Wrapper

end OmarchyKids
