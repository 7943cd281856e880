import Mathlib
import OmarchyKids.Lib.ByteStream

/-!
# OmarchyKids.Lib.TimedReads

Reading a delimited line from a peer that takes its time. The bytes arrive in
pieces, each at its own instant. Every read call waits for the next piece, but no
longer than a timeout counted from the call; the reader goes on until it has met
the delimiter or the limit, the peer has closed, or a call has timed out.

Reads that succeed do not change what is read (`bytes_eq_cut`). They do change
when reading ends: each piece starts the timeout anew, so reading ends within one
timeout of its start only under the condition of `endsAt_le_iff`.
-/

namespace TimedReads

open ByteStream

structure Piece where
  arrivesAt : Int
  bytes : List UInt8
  deriving DecidableEq, Repr

/-- What a peer sends, in order, and when it closes, if it does. A piece is not
empty: an empty read would be the end of the input. -/
structure Peer where
  pieces : List Piece
  closesAt : Option Int
  nonempty : ∀ p ∈ pieces, p.bytes ≠ []
  sorted : pieces.Pairwise fun p q => p.arrivesAt ≤ q.arrivesAt
  closesLast : ∀ c ∈ closesAt, ∀ p ∈ pieces, p.arrivesAt ≤ c

inductive Ending
  | delimited
  | full
  | closed
  | timedOut
  deriving DecidableEq, Repr

/-- What was read, when reading ended, and why. -/
structure Reading where
  bytes : List UInt8
  endsAt : Int
  ending : Ending
  deriving DecidableEq, Repr

/-- Reads up to the delimiter or the limit; the call for the first piece is made
at `now`. -/
def readUntil (delim : UInt8) (timeout : Int) (closesAt : Option Int) :
    Nat → Int → List Piece → Reading
  | 0, now, _ => ⟨[], now, .full⟩
  | _ + 1, now, [] =>
      match closesAt with
      | some c =>
          if c ≤ now + timeout then ⟨[], max now c, .closed⟩ else ⟨[], now + timeout, .timedOut⟩
      | none => ⟨[], now + timeout, .timedOut⟩
  | limit + 1, now, p :: ps =>
      if p.arrivesAt ≤ now + timeout then
        let now := max now p.arrivesAt
        let got := cut delim (limit + 1) p.bytes
        if delim ∈ got then ⟨got, now, .delimited⟩
        else if got.length = limit + 1 then ⟨got, now, .full⟩
        else
          let more := readUntil delim timeout closesAt (limit + 1 - got.length) now ps
          { more with bytes := got ++ more.bytes }
      else ⟨[], now + timeout, .timedOut⟩

/-- All bytes of some pieces. -/
def allBytes (ps : List Piece) : List UInt8 := (ps.map Piece.bytes).flatten

/-- The bytes that have arrived by an instant. -/
def arrivedBy (t : Int) (ps : List Piece) : List UInt8 :=
  allBytes (ps.filter fun p => decide (p.arrivesAt ≤ t))

variable {delim : UInt8} {timeout : Int} {closesAt : Option Int}

@[simp] theorem allBytes_nil : allBytes [] = [] := rfl

@[simp] theorem allBytes_cons (p : Piece) (ps : List Piece) :
    allBytes (p :: ps) = p.bytes ++ allBytes ps := by
  simp [allBytes]

theorem arrivedBy_cons_of_le {t : Int} {p : Piece} (h : p.arrivesAt ≤ t) (ps : List Piece) :
    arrivedBy t (p :: ps) = p.bytes ++ arrivedBy t ps := by
  simp [arrivedBy, h]

theorem arrivedBy_eq_nil {t : Int} {ps : List Piece} (h : ∀ p ∈ ps, t < p.arrivesAt) :
    arrivedBy t ps = [] := by
  rw [arrivedBy, List.filter_eq_nil_iff.mpr fun p hp => by simpa using h p hp, allBytes_nil]

/-! ### What is read -/

/-- A reading that does not time out is that of an untimed reader. -/
theorem bytes_eq_cut (n : Nat) (now : Int) (ps : List Piece)
    (h : (readUntil delim timeout closesAt n now ps).ending ≠ .timedOut) :
    (readUntil delim timeout closesAt n now ps).bytes = cut delim n (allBytes ps) := by
  fun_induction readUntil delim timeout closesAt n now ps with
  | case1 now ps => simp
  | case2 n now c hc hcloses => simp
  | case3 n now c hc hlate => simp at h
  | case4 n now hc => simp at h
  | case5 n now p ps harrives later got hd => rw [allBytes_cons, cut_append, if_pos hd]
  | case6 n now p ps harrives later got hd hl =>
      rw [allBytes_cons, cut_append_of_stop (.inr hl)]
  | case7 n now p ps harrives later got hd hl more ih =>
      rw [allBytes_cons, cut_append, if_neg hd, ← ih h]
  | case8 n now p ps hlate => simp at h

/-- A reading that stopped at the limit is that long; one that timed out has met
neither delimiter nor limit. -/
theorem ending_bytes (n : Nat) (now : Int) (ps : List Piece) :
    ((readUntil delim timeout closesAt n now ps).ending = .full →
        (readUntil delim timeout closesAt n now ps).bytes.length = n) ∧
      ((readUntil delim timeout closesAt n now ps).ending = .timedOut →
        delim ∉ (readUntil delim timeout closesAt n now ps).bytes ∧
          (readUntil delim timeout closesAt n now ps).bytes.length < n) := by
  fun_induction readUntil delim timeout closesAt n now ps with
  | case1 now ps => simp
  | case2 n now c hc hcloses => simp
  | case3 n now c hc hlate => simp
  | case4 n now hc => simp
  | case5 n now p ps harrives later got hd => simp
  | case6 n now p ps harrives later got hd hl => simp [hl]
  | case7 n now p ps harrives later got hd hl more ih =>
      have hle : got.length ≤ n + 1 := length_cut_le delim (n + 1) p.bytes
      obtain ⟨hfull, htimedOut⟩ := ih
      rw [List.length_append, List.mem_append, not_or]
      refine ⟨fun hending => ?_, fun hending => ?_⟩
      · rw [hfull hending]
        omega
      · obtain ⟨hnone, hshort⟩ := htimedOut hending
        have hshort : more.bytes.length < n + 1 - got.length := hshort
        exact ⟨⟨hd, hnone⟩, by omega⟩
  | case8 n now p ps hlate => simp

theorem start_le_endsAt (htimeout : 0 ≤ timeout) (n : Nat) (now : Int) (ps : List Piece) :
    now ≤ (readUntil delim timeout closesAt n now ps).endsAt := by
  fun_induction readUntil delim timeout closesAt n now ps with
  | case1 now ps => exact le_refl _
  | case2 n now c hc hcloses => exact le_max_left _ _
  | case3 n now c hc hlate => exact le_add_of_nonneg_right htimeout
  | case4 n now hc => exact le_add_of_nonneg_right htimeout
  | case5 n now p ps harrives later got hd => exact le_max_left _ _
  | case6 n now p ps harrives later got hd hl => exact le_max_left _ _
  | case7 n now p ps harrives later got hd hl more ih => exact (le_max_left _ _).trans ih
  | case8 n now p ps hlate => exact le_add_of_nonneg_right htimeout

/-- A line that has been read by `t` had arrived by `t`, and so had the end of
the input. -/
theorem ending_arrived (htimeout : 0 ≤ timeout) {t : Int} (n : Nat) (now : Int) (ps : List Piece)
    (hend : (readUntil delim timeout closesAt n now ps).endsAt ≤ t) :
    ((readUntil delim timeout closesAt n now ps).ending = .delimited →
        delim ∈ cut delim n (arrivedBy t ps)) ∧
      ((readUntil delim timeout closesAt n now ps).ending = .closed →
        ∃ c ∈ closesAt, c ≤ t) := by
  fun_induction readUntil delim timeout closesAt n now ps with
  | case1 now ps => simp
  | case2 n now c hc hcloses => exact ⟨by simp, fun _ => ⟨c, hc, (le_max_right _ _).trans hend⟩⟩
  | case3 n now c hc hlate => simp
  | case4 n now hc => simp
  | case5 n now p ps harrives later got hd =>
      rw [arrivedBy_cons_of_le ((le_max_right _ _).trans hend), cut_append, if_pos hd]
      exact ⟨fun _ => hd, by simp⟩
  | case6 n now p ps harrives later got hd hl => simp
  | case7 n now p ps harrives later got hd hl more ih =>
      have hlater : later ≤ t := (start_le_endsAt htimeout _ _ ps).trans hend
      rw [arrivedBy_cons_of_le ((le_max_right _ _).trans hlater), cut_append, if_neg hd]
      obtain ⟨hdelimited, hclosed⟩ := ih hend
      exact ⟨fun hending => List.mem_append_right _ (hdelimited hending), hclosed⟩
  | case8 n now p ps hlate => simp

/-! ### When reading ends -/

/-- By `t` the reader has all it waits for. -/
def SettledBy (delim : UInt8) (closesAt : Option Int) (n : Nat) (ps : List Piece) (t : Int) : Prop :=
  delim ∈ cut delim n (arrivedBy t ps) ∨ (cut delim n (arrivedBy t ps)).length = n ∨
    ∃ c ∈ closesAt, c ≤ t

/-- A piece that was read without meeting delimiter or limit leaves the rest to
be waited for. -/
theorem settledBy_cons {n : Nat} {p : Piece} {ps : List Piece} {t : Int} (harrived : p.arrivesAt ≤ t)
    (hd : delim ∉ cut delim n p.bytes) :
    SettledBy delim closesAt n (p :: ps) t ↔
      SettledBy delim closesAt (n - (cut delim n p.bytes).length) ps t := by
  have hle := length_cut_le delim n p.bytes
  unfold SettledBy
  rw [arrivedBy_cons_of_le harrived, cut_append, if_neg hd, List.mem_append, or_iff_right hd,
    List.length_append]
  refine or_congr_right (or_congr_left ?_)
  omega

/-- Nothing has arrived before the first piece, not even the end of the input. -/
theorem not_settledBy {n : Nat} {ps : List Piece} {t : Int} (hwaiting : ∀ p ∈ ps, t < p.arrivesAt)
    (hopen : ∀ c ∈ closesAt, t < c) : ¬ SettledBy delim closesAt (n + 1) ps t := by
  unfold SettledBy
  rw [arrivedBy_eq_nil hwaiting, cut_nil]
  intro h
  rcases h with hd | hl | ⟨c, hc, hle⟩
  · cases hd
  · cases hl
  · exact absurd hle (not_le.mpr (hopen c hc))

/-- Reading goes on at least until a piece that a call has waited for. -/
theorem first_le_endsAt (htimeout : 0 ≤ timeout) {n : Nat} {now : Int} {p : Piece} {ps : List Piece}
    (harrives : p.arrivesAt ≤ now + timeout) :
    p.arrivesAt ≤ (readUntil delim timeout closesAt (n + 1) now (p :: ps)).endsAt := by
  unfold readUntil
  simp only [harrives, if_true]
  split
  · exact le_max_right _ _
  · split
    · exact le_max_right _ _
    · exact (le_max_right _ _).trans (start_le_endsAt htimeout _ _ ps)

/-- After a piece the timeout starts anew, unless the piece lay there at the
first call. -/
theorem silent_cons {now t : Int} {p : Piece} {ps : List Piece} (harrived : p.arrivesAt ≤ t)
    (ht : t ≤ now + timeout) :
    (t = max now p.arrivesAt + timeout ∧
        ∀ q ∈ ps, max now p.arrivesAt < q.arrivesAt → t < q.arrivesAt) ↔
      (t = now + timeout ∧ ∀ q ∈ p :: ps, now < q.arrivesAt → t < q.arrivesAt) := by
  constructor
  · intro h
    obtain ⟨hlast, hsilent⟩ := h
    have hthere : p.arrivesAt ≤ now := by
      have := le_max_right now p.arrivesAt
      omega
    rw [max_eq_left hthere] at hlast hsilent
    refine ⟨hlast, fun q hq hafter => ?_⟩
    rcases List.mem_cons.mp hq with rfl | hq
    · exact absurd hafter (not_lt.mpr hthere)
    · exact hsilent q hq hafter
  · intro h
    obtain ⟨hlast, hsilent⟩ := h
    have hthere : p.arrivesAt ≤ now := by
      by_contra hafter
      exact absurd (hsilent p List.mem_cons_self (not_le.mp hafter)) (not_lt.mpr harrived)
    rw [max_eq_left hthere]
    exact ⟨hlast, fun q hq => hsilent q (List.mem_cons_of_mem _ hq)⟩

/-- With no piece left, reading ends with the input or when the call times out. -/
theorem endsAt_nil_le_iff {t : Int} (n : Nat) {now : Int} (hnow : now ≤ t) (ht : t ≤ now + timeout) :
    (readUntil delim timeout closesAt (n + 1) now []).endsAt ≤ t ↔
      (∃ c ∈ closesAt, c ≤ t) ∨ t = now + timeout := by
  unfold readUntil
  cases closesAt with
  | none =>
      simp only [Option.mem_def, reduceCtorEq, false_and, exists_false, false_or]
      omega
  | some c =>
      simp only [Option.mem_def, Option.some.injEq, exists_eq_left']
      split
      · rw [max_le_iff]
        omega
      · dsimp only
        omega

/-- If the next piece comes later, reading ends only if the call times out. -/
theorem endsAt_waiting_le_iff (htimeout : 0 ≤ timeout) {t : Int} (n : Nat) {now : Int} {p : Piece}
    (ps : List Piece) (hlate : t < p.arrivesAt) (ht : t ≤ now + timeout) :
    (readUntil delim timeout closesAt (n + 1) now (p :: ps)).endsAt ≤ t ↔ t = now + timeout := by
  by_cases harrives : p.arrivesAt ≤ now + timeout
  · have hends := @first_le_endsAt delim timeout closesAt htimeout n now p ps harrives
    omega
  · unfold readUntil
    simp only [harrives, if_false]
    omega

/-- Reading ends by an instant no later than the first call would time out, if by
then the reader has all it waits for, or if that is when the first call times
out, with no piece arriving in the meantime. -/
theorem endsAt_le_iff (htimeout : 0 ≤ timeout) {t : Int} (n : Nat) (now : Int) (ps : List Piece)
    (hsorted : ps.Pairwise fun p q => p.arrivesAt ≤ q.arrivesAt)
    (hcloses : ∀ c ∈ closesAt, ∀ p ∈ ps, p.arrivesAt ≤ c) (hnow : now ≤ t) (ht : t ≤ now + timeout) :
    (readUntil delim timeout closesAt n now ps).endsAt ≤ t ↔
      SettledBy delim closesAt n ps t ∨
        (t = now + timeout ∧ ∀ p ∈ ps, now < p.arrivesAt → t < p.arrivesAt) := by
  induction ps generalizing n now with
  | nil =>
      cases n with
      | zero => simp [readUntil, SettledBy, hnow]
      | succ n =>
          rw [endsAt_nil_le_iff n hnow ht]
          simp [SettledBy, arrivedBy]
  | cons p ps ih =>
      cases n with
      | zero => simp [readUntil, SettledBy, hnow]
      | succ n =>
          obtain ⟨hfirst, hsorted⟩ := List.pairwise_cons.mp hsorted
          by_cases harrived : p.arrivesAt ≤ t
          · have harrives := harrived.trans ht
            have hlater : max now p.arrivesAt ≤ t := max_le hnow harrived
            unfold readUntil
            simp only [harrives, if_true]
            by_cases hd : delim ∈ cut delim (n + 1) p.bytes
            · simp only [hd, if_true, hlater, true_iff]
              left; left
              rw [arrivedBy_cons_of_le harrived, cut_append, if_pos hd]
              exact hd
            · by_cases hl : (cut delim (n + 1) p.bytes).length = n + 1
              · simp only [hd, hl, if_false, if_true, hlater, true_iff]
                left; right; left
                rw [arrivedBy_cons_of_le harrived, cut_append_of_stop (.inr hl), hl]
              · simp only [hd, hl, if_false]
                have hcall : t ≤ max now p.arrivesAt + timeout :=
                  ht.trans (by have := le_max_left now p.arrivesAt; omega)
                rw [ih _ _ hsorted (fun c hc q hq => hcloses c hc q (List.mem_cons_of_mem _ hq)) hlater
                  hcall, settledBy_cons harrived hd]
                exact or_congr_right (silent_cons harrived ht)
          · have hwaiting : ∀ q ∈ p :: ps, t < q.arrivesAt := by
              intro q hq
              rcases List.mem_cons.mp hq with rfl | hq
              · exact not_le.mp harrived
              · exact (not_le.mp harrived).trans_le (hfirst q hq)
            have hopen : ∀ c ∈ closesAt, t < c := fun c hc =>
              (not_le.mp harrived).trans_le (hcloses c hc p List.mem_cons_self)
            rw [or_iff_right (not_settledBy hwaiting hopen),
              and_iff_left fun q hq _ => hwaiting q hq]
            exact endsAt_waiting_le_iff htimeout n ps (not_le.mp harrived) ht

end TimedReads
