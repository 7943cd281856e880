import OmarchyKids.Pairing.Agreement

/-!
# OmarchyKids.Pairing.Deadline

The accept loop of `serve` against the clock. Connections arrive at any instants
and wait in the listener's queue; a turn of the loop takes one of them and
handles it for as long as its client likes, or finds the queue empty, looks at
the clock and naps.

Only a turn that finds the queue empty looks at the clock. So no connection is
handled past the deadline exactly if the first turn past the deadline finds the
queue empty (`handled_before_deadline_iff`).
-/

namespace OmarchyKids.Pairing

/-- A connection, and when it enters the listener's queue. -/
structure Arrival where
  arrivesAt : Int
  connection : Connection

/-- The accept loop between two turns. Instants are in nanoseconds. -/
structure Loop where
  now : Int
  /-- The connections not accepted yet, in the order of their arrival. -/
  arrivals : List Arrival
  window : Window

namespace Loop

/-- The connection an `accept` call would return now, and what it leaves. -/
def accept (l : Loop) : Option Connection × List Arrival :=
  match l.arrivals with
  | [] => (none, [])
  | a :: rest => if a.arrivesAt ≤ l.now then (some a.connection, rest) else (none, a :: rest)

/-- The `accept` call of this turn. -/
def poll (l : Loop) : Poll := ⟨l.now, l.accept.1⟩

/-- The length of a nap. -/
def nap : Int := 200000000

/-- One turn. It takes `took` to handle a connection; a nap is overslept by as
much. -/
def turn {K : Type} (x : Crates K) (srv : Server) (l : Loop) (took : Nat) : Loop :=
  if l.window.status = .waiting then
    { now := l.now + (if l.accept.1.isSome then 0 else nap) + took
      arrivals := l.accept.2
      window := serveStep x srv l.window l.poll }
  else l

/-- This turn begins to handle a connection. -/
def Begins (l : Loop) : Prop := l.window.status = .waiting ∧ l.accept.1.isSome = true

end Loop

variable {K : Type} {x : Crates K} {srv : Server}

/-! ### One turn -/

theorem turn_returned {l : Loop} (h : l.window.status ≠ .waiting) (took : Nat) :
    l.turn x srv took = l := if_neg h

/-- A turn past the deadline that finds the queue empty is the last one. -/
theorem turn_timedOut {l : Loop} (hwaiting : l.window.status = .waiting)
    (hpast : srv.deadline ≤ l.now) (hempty : l.accept.1 = none) (took : Nat) :
    (l.turn x srv took).window.status = .timedOut := by
  rw [Loop.turn, if_pos hwaiting]
  have hpoll : l.poll.connection = none := hempty
  simp only [serveStep, if_pos hwaiting, hpoll]
  rw [if_pos (show srv.deadline ≤ l.poll.now from hpast)]

/-- Whatever the clock shows, the window goes through the steps of `serve`. -/
theorem turn_window (l : Loop) (took : Nat) :
    (l.turn x srv took).window = serveStep x srv l.window l.poll := by
  by_cases hwaiting : l.window.status = .waiting
  · rw [Loop.turn, if_pos hwaiting]
  · rw [turn_returned hwaiting, serveStep_returned hwaiting]

/-! ### Whole windows -/

theorem run_window (file : KeysFile) (now : Int) (arrivals : List Arrival) (turns : List Nat) :
    ∃ polls, (Runs.run (Loop.turn x srv) ⟨now, arrivals, { authorizedKeys := file }⟩ turns).window =
      serve x srv file polls := by
  refine Runs.run_invariant (I := fun l : Loop => ∃ polls, l.window = serve x srv file polls)
    ⟨[], rfl⟩ (fun l took h => ?_) turns
  obtain ⟨polls, hpolls⟩ := h
  exact ⟨polls ++ [l.poll], by rw [turn_window, hpolls, serve_concat]⟩

/-- Once `serve` has returned, it has returned for good. -/
theorem waiting_of_append {l : Loop} {before after : List Nat}
    (h : (Runs.run (Loop.turn x srv) l (before ++ after)).window.status = .waiting) :
    (Runs.run (Loop.turn x srv) l before).window.status = .waiting := by
  by_contra hreturned
  have hsame : Runs.run (Loop.turn x srv) (Runs.run (Loop.turn x srv) l before) after =
      Runs.run (Loop.turn x srv) l before :=
    Runs.run_invariant (I := (· = Runs.run (Loop.turn x srv) l before)) rfl
      (fun _ took heq => by rw [heq, turn_returned hreturned]) after
  rw [Runs.run_append, hsame] at h
  exact hreturned h

variable (x srv) in
/-- The turn after `before` is the first one past the deadline. -/
def FirstPast (l : Loop) (before : List Nat) : Prop :=
  srv.deadline ≤ (Runs.run (Loop.turn x srv) l before).now ∧
    ∀ earlier rest, before = earlier ++ rest → rest ≠ [] →
      (Runs.run (Loop.turn x srv) l earlier).now < srv.deadline

/-- No connection is handled past the deadline, however connections arrive and
however long they take, exactly if the first turn past the deadline finds the
queue empty (or `serve` has returned before). -/
theorem handled_before_deadline_iff (x : Crates K) (srv : Server) (l : Loop) (turns : List Nat) :
    (∀ before after, turns = before ++ after → (Runs.run (Loop.turn x srv) l before).Begins →
        (Runs.run (Loop.turn x srv) l before).now < srv.deadline) ↔
      ∀ before after, turns = before ++ after → FirstPast x srv l before →
        (Runs.run (Loop.turn x srv) l before).window.status = .waiting →
          (Runs.run (Loop.turn x srv) l before).accept.1 = none := by
  constructor
  · intro h before after hturns hfirst hwaiting
    by_contra hqueued
    have hbegins := h before after hturns ⟨hwaiting, Option.isSome_iff_ne_none.mpr hqueued⟩
    exact absurd hbegins (not_lt.mpr hfirst.1)
  · intro h before after hturns hbegins
    obtain ⟨hwaiting, hqueued⟩ := hbegins
    by_contra hpast
    -- the first turn past the deadline came no later than this one
    obtain ⟨first, rest, rfl, hreached, hfirst⟩ :=
      Runs.run_first (P := fun l : Loop => srv.deadline ≤ l.now) (not_lt.mp hpast)
    have hstill := waiting_of_append hwaiting
    have hempty := h first (rest ++ after) (by rw [hturns, List.append_assoc])
      ⟨hreached, fun earlier rest' hsplit hrest => not_le.mp (hfirst earlier rest' hsplit hrest)⟩
      hstill
    cases rest with
    | nil =>
        rw [List.append_nil, hempty] at hqueued
        cases hqueued
    | cons took rest =>
        -- it found the queue empty and returned, so this one never came
        rw [Runs.run_append, Runs.run_cons] at hwaiting
        have hclosed := @waiting_of_append K x srv
          ((Runs.run (Loop.turn x srv) l first).turn x srv took) [] rest hwaiting
        have htimedOut := turn_timedOut (x := x) hstill hreached hempty took
        have heq := hclosed.symm.trans htimedOut
        cases heq

/-! ### A stalling client -/

/-- A window of five minutes. -/
def shortWindow : Server := { kidServer with deadline := 300000000000 }

/-- A client that sends two octets and then nothing until the read times out. -/
def stallingConnection : Connection where
  input := ⟨[[123], [34]], some "Resource temporarily unavailable"⟩
  writeError _ := none
  machine := kidMachine 7

/-- One client connects at once, a second one five seconds after the deadline. -/
def lateArrival : Loop where
  now := 0
  arrivals := [⟨0, stallingConnection⟩, ⟨305000000000, stallingConnection⟩]
  window := { authorizedKeys := none }

/-- While the first client keeps the loop busy the deadline passes; the second
one is accepted ten seconds after it. -/
theorem late_connection_is_handled :
    ¬ ∀ (x : Crates (List UInt8)) (srv : Server) (l : Loop) (turns before after : List Nat),
      turns = before ++ after → (Runs.run (Loop.turn x srv) l before).Begins →
        (Runs.run (Loop.turn x srv) l before).now < srv.deadline := by
  intro h
  have hbegins : (Runs.run (Loop.turn demoCrates shortWindow) lateArrival [310000000000]).Begins := by
    constructor <;> decide +kernel
  have hlate := h demoCrates shortWindow lateArrival _ [310000000000] [] rfl hbegins
  exact absurd hlate (by decide +kernel)

end OmarchyKids.Pairing
