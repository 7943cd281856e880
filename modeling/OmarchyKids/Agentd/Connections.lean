import OmarchyKids.Agentd.Daemon
import OmarchyKids.Lib.TimedReads

/-!
# OmarchyKids.Agentd.Connections

How long a connection occupies the daemon. A handler reads one request line with
a timeout on each read call, answers it, and is gone; at most
`maxConcurrentConnections` handlers are alive at a time, and a connection that
comes when they are is dropped unread.

The timeout bounds a single read call, not the handler. So a handler is through
within the timeout only if its client has by then sent a line, too much for a
line, or the end of its input — or nothing at all since it was accepted
(`finishes_in_time_iff`). Computing takes no time here; answering takes as long
as it does.
-/

namespace OmarchyKids

open Daemon TimedReads

/-- `MAX_CONCURRENT_CONNECTIONS` -/
def maxConcurrentConnections : Nat := 32

/-- `CONNECTION_IDLE_TIMEOUT`, in nanoseconds. -/
def connectionIdleTimeout : Int := 10000000000

/-! ### One handler -/

/-- A connection: when it is accepted, what its client does, and how long it will
take to answer its request, if it sends one. -/
structure Incoming where
  acceptedAt : Int
  client : Peer
  answering : Nat

namespace Incoming

/-- The handler's call of `read_line_bounded`, on the clock. -/
def reading (c : Incoming) : Reading :=
  readUntil 10 connectionIdleTimeout c.client.closesAt (maxLineBytes + 1) c.acceptedAt
    c.client.pieces

/-- The connection as its handler reads it: a call that times out is an I/O
error. -/
def stream (c : Incoming) : Stream where
  chunks := [c.reading.bytes]
  failure :=
    if c.reading.ending = .timedOut then some "Resource temporarily unavailable (os error 11)"
    else none

/-- The request line, if the handler gets one. -/
def line (c : Incoming) : Option String :=
  match (readLineBounded c.stream maxLineBytes).1 with
  | .ok line => line
  | .error _ => none

/-- When the handler is through: at once if there is no line to answer. -/
def finishesAt (c : Incoming) : Int :=
  c.reading.endsAt + if c.line.isSome then (c.answering : Int) else 0

/-- The end of the time in which a connection has to send its request. -/
def deadline (c : Incoming) : Int := c.acceptedAt + connectionIdleTimeout

/-- The octets that have arrived by an instant. -/
def arrived (c : Incoming) (t : Int) : List UInt8 := arrivedBy t c.client.pieces

/-- The client has closed its end by an instant. -/
def ClosedBy (c : Incoming) (t : Int) : Prop := ∃ closed ∈ c.client.closesAt, closed ≤ t

/-- A complete request line has arrived: its terminator within the limit, or the
end of the input after it. -/
def LineCompleteBy (c : Incoming) (t : Int) : Prop :=
  10 ∈ (c.arrived t).take (maxLineBytes + 1) ∨ c.ClosedBy t

end Incoming

/-! ### What the handler reads -/

/-- What the handler makes of a connection on which no call times out is what the
untimed reader makes of everything the client sends. -/
theorem reading_untimed {c : Incoming} (h : c.reading.ending ≠ .timedOut) :
    (readLineBounded c.stream maxLineBytes).1 =
      (readLineBounded ⟨c.client.pieces.map Piece.bytes, none⟩ maxLineBytes).1 := by
  have hbytes := bytes_eq_cut (maxLineBytes + 1) c.acceptedAt c.client.pieces h
  rw [Incoming.stream, if_neg h]
  refine readLineBounded_congr ?_
  rw [List.flatten_cons, List.flatten_nil, List.append_nil,
    show c.reading.bytes = _ from hbytes, ByteStream.cut_cut]
  rfl

/-- A call that times out leaves the handler without a line, and so does an
oversized one. -/
theorem line_eq_none {c : Incoming} (h : c.reading.ending = .timedOut ∨ c.reading.ending = .full) :
    c.line = none := by
  have hfull : c.reading.ending = .full → c.reading.bytes.length = maxLineBytes + 1 :=
    (ending_bytes (maxLineBytes + 1) c.acceptedAt c.client.pieces).1
  have htimedOut : c.reading.ending = .timedOut →
      10 ∉ c.reading.bytes ∧ c.reading.bytes.length < maxLineBytes + 1 :=
    (ending_bytes (maxLineBytes + 1) c.acceptedAt c.client.pieces).2
  have hbuf := ByteStream.fill_fst 10 (maxLineBytes + 1) c.stream.chunks
  have hend := ByteStream.fill_end 10 (maxLineBytes + 1) c.stream.chunks
  rw [show c.stream.chunks.flatten = c.reading.bytes by simp [Incoming.stream]] at hbuf hend
  unfold Incoming.line readLineBounded
  generalize ByteStream.fill 10 (maxLineBytes + 1) c.stream.chunks = filled at hbuf hend
  obtain ⟨buf, rest, hitEnd⟩ := filled
  dsimp only at hbuf hend ⊢
  rcases h with h | h
  · obtain ⟨hnone, hshort⟩ := htimedOut h
    have hself : ByteStream.cut 10 (maxLineBytes + 1) c.reading.bytes = c.reading.bytes := by
      rw [ByteStream.cut_unterminated hnone, List.take_of_length_le (Nat.le_of_lt hshort)]
    rw [hself] at hend
    rw [hend.mpr ⟨hnone, Nat.ne_of_lt hshort⟩, if_pos rfl, Incoming.stream, if_pos h]
  · have hbytes : c.reading.bytes = _ :=
      bytes_eq_cut (maxLineBytes + 1) c.acceptedAt c.client.pieces
        (show c.reading.ending ≠ .timedOut by simp [h])
    have hlen : buf.length = maxLineBytes + 1 := by
      rw [hbuf, hbytes, ByteStream.cut_cut, ← hbytes]
      exact hfull h
    have hnofailure : c.stream.failure = none := by simp [Incoming.stream, h]
    have hne : buf ≠ [] := by
      intro hnil
      rw [hnil] at hlen
      cases hlen
    rw [hnofailure, ite_self]
    simp [hne, hlen]

/-- A handler that gets a line gets a complete one. -/
theorem lineComplete_of_line {c : Incoming} {t : Int} (hline : c.line.isSome = true)
    (hend : c.reading.endsAt ≤ t) : c.LineCompleteBy t := by
  have harrived := ending_arrived (by decide) (maxLineBytes + 1) c.acceptedAt c.client.pieces hend
  cases hending : c.reading.ending with
  | delimited => exact .inl (ByteStream.mem_cut_iff.mp (harrived.1 hending))
  | closed => exact .inr (harrived.2 hending)
  | full =>
      rw [line_eq_none (.inr hending)] at hline
      cases hline
  | timedOut =>
      rw [line_eq_none (.inl hending)] at hline
      cases hline

/-- Without a line the handler answers nothing and leaves the daemon alone. -/
theorem handleConnection_of_no_line {c : Incoming} (h : c.line = none)
    (fromStr : String → Except String Request) (p : Platform) (env : Env) (s : State) :
    handleConnection fromStr p env s c.stream = (s, []) := by
  unfold Incoming.line at h
  unfold handleConnection
  cases hread : (readLineBounded c.stream maxLineBytes).1 with
  | error e => rfl
  | ok line =>
      rw [hread] at h
      obtain rfl : line = none := h
      rfl

/-- Reading ends by the deadline exactly if the reader then has all it waits for,
or has got nothing since the connection was accepted. -/
theorem reading_endsAt_le_iff (c : Incoming) :
    c.reading.endsAt ≤ c.deadline ↔
      (10 ∈ (c.arrived c.deadline).take (maxLineBytes + 1) ∨
          maxLineBytes < (c.arrived c.deadline).length ∨ c.ClosedBy c.deadline) ∨
        ∀ p ∈ c.client.pieces, c.acceptedAt < p.arrivesAt → c.deadline < p.arrivesAt := by
  have hends := @endsAt_le_iff 10 connectionIdleTimeout c.client.closesAt (by decide) c.deadline
    (maxLineBytes + 1) c.acceptedAt c.client.pieces c.client.sorted c.client.closesLast
    (le_add_of_nonneg_right (by decide)) (le_refl _)
  refine hends.trans (or_congr ?_ (and_iff_right rfl))
  unfold SettledBy
  by_cases hd : 10 ∈ ByteStream.cut 10 (maxLineBytes + 1) (arrivedBy c.deadline c.client.pieces)
  · exact ⟨fun _ => .inl (ByteStream.mem_cut_iff.mp hd), fun _ => .inl hd⟩
  · rw [ByteStream.length_cut_iff hd, ByteStream.mem_cut_iff, Nat.succ_le_iff]
    rfl

/-! ### The deadline -/

/-- A handler is through within the timeout, unless a complete request line has
arrived by then, exactly if by then its client has sent a line, more than a line
may hold, or the end of its input, or has sent nothing since it was accepted. -/
theorem finishes_in_time_iff (c : Incoming) :
    (c.finishesAt ≤ c.deadline ∨ c.LineCompleteBy c.deadline) ↔
      (10 ∈ (c.arrived c.deadline).take (maxLineBytes + 1) ∨
          maxLineBytes < (c.arrived c.deadline).length ∨ c.ClosedBy c.deadline) ∨
        ∀ p ∈ c.client.pieces, c.acceptedAt < p.arrivesAt → c.deadline < p.arrivesAt := by
  rw [← reading_endsAt_le_iff]
  constructor
  · intro h
    rcases h with hfinishes | hcomplete
    · refine le_trans ?_ hfinishes
      unfold Incoming.finishesAt
      split
      · exact le_add_of_nonneg_right (Int.natCast_nonneg _)
      · exact le_add_of_nonneg_right (le_refl _)
    · refine (reading_endsAt_le_iff c).mpr (.inl ?_)
      rcases hcomplete with hterminated | hclosed
      · exact .inl hterminated
      · exact .inr (.inr hclosed)
  · intro hend
    cases hline : c.line with
    | some text => exact .inr (lineComplete_of_line (by rw [hline]; rfl) hend)
    | none =>
        left
        simp only [Incoming.finishesAt, hline, Option.isSome_none, Bool.false_eq_true, if_false,
          add_zero]
        exact hend

/-! ### The connection limit -/

/-- The handlers alive at an instant, given when each is through. -/
def activeConnections (handlers : List Int) (now : Int) : Nat :=
  (handlers.filter fun finishesAt => decide (now < finishesAt)).length

/-- The accept loop of `main`: a connection over the limit is dropped. -/
def acceptStep (handlers : List Int) (c : Incoming) : List Int :=
  if maxConcurrentConnections ≤ activeConnections handlers c.acceptedAt then handlers
  else handlers ++ [c.finishesAt]

theorem mem_run_acceptStep {cs : List Incoming} {t : Int}
    (h : t ∈ Runs.run acceptStep [] cs) : ∃ c ∈ cs, t = c.finishesAt := by
  induction cs using List.reverseRecOn with
  | nil => cases h
  | append_singleton cs c ih =>
      rw [Runs.run_concat, acceptStep] at h
      split at h
      · obtain ⟨c', hc', rfl⟩ := ih h
        exact ⟨c', List.mem_append_left _ hc', rfl⟩
      · rcases List.mem_append.mp h with hold | hnew
        · obtain ⟨c', hc', rfl⟩ := ih hold
          exact ⟨c', List.mem_append_left _ hc', rfl⟩
        · exact ⟨c, List.mem_append_right _ (List.mem_singleton_self _), List.mem_singleton.mp hnew⟩

/-- Clients that never complete a request line cannot lock out others for longer
than the timeout, as long as their handlers are through in time. -/
theorem admitted_after_timeout {cs : List Incoming}
    (hcs : ∀ c ∈ cs, c.finishesAt ≤ c.deadline) {now : Int} (hnow : ∀ c ∈ cs, c.deadline ≤ now) :
    activeConnections (Runs.run acceptStep [] cs) now = 0 := by
  unfold activeConnections
  rw [List.filter_eq_nil_iff.mpr, List.length_nil]
  intro t ht
  obtain ⟨c, hc, rfl⟩ := mem_run_acceptStep ht
  simpa using (hcs c hc).trans (hnow c hc)

/-! ### Slow clients -/

/-- One octet at once, one after nine seconds, one after eighteen. -/
def slowClient : Peer where
  pieces := [⟨0, [123]⟩, ⟨9000000000, [34]⟩, ⟨18000000000, [34]⟩]
  closesAt := none
  nonempty := by decide
  sorted := by decide
  closesLast := by decide

def slowConnection : Incoming := ⟨0, slowClient, 0⟩

/-- It takes the handler 28 seconds to give up on a slow client. -/
theorem slow_client_outstays_timeout :
    ¬ ∀ c : Incoming, c.finishesAt ≤ c.deadline ∨ c.LineCompleteBy c.deadline := by
  intro h
  rcases h slowConnection with hfinishes | hterminated | ⟨closed, hclosed, -⟩
  · exact absurd hfinishes (by decide +kernel)
  · exact absurd hterminated (by decide +kernel)
  · cases hclosed

/-- With 32 of them, whoever connects after 27 seconds is still turned away. -/
example : activeConnections
    (Runs.run acceptStep [] (List.replicate maxConcurrentConnections slowConnection))
      27000000000 = maxConcurrentConnections := by
  decide +kernel

end OmarchyKids
