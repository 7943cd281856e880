import Mathlib
import OmarchyKids.Common.Transport

/-!
# OmarchyKids.Common.Framing

The bounded line reader against a reference line splitter.

The reader looks one byte past its limit to tell a line that just fits from one
that does not. It computes that byte's position in a machine word, so the largest
limit of all leaves it nothing to read: there it reports the end of any input
(`readLineBoundedUsize_max`). Below, it is the reference on every stream, and
called again and again returns the lines that were written
(`reads_as_reference_iff`).
-/

namespace OmarchyKids

open ByteStream

/-! ### The reference -/

/-- A line's text: without a final LF or CRLF. -/
inductive Chomped : List UInt8 → List UInt8 → Prop
  | crlf (text : List UInt8) : Chomped (text ++ [13, 10]) text
  | lf {text : List UInt8} (hcr : text.getLast? ≠ some 13) : Chomped (text ++ [10]) text
  | unterminated {text : List UInt8} (hlf : 10 ∉ text) : Chomped text text

/-- What one call should return for the input `input`, and what it should leave. -/
inductive ReferenceRead (maxBytes : Nat) (input : List UInt8) :
    Except ReadError (Option String) → List UInt8 → Prop
  | atEnd (hinput : input = []) : ReferenceRead maxBytes input (.ok none) []
  /-- At most one byte past the limit is consumed. -/
  | tooLong {n : Nat} (hlong : maxBytes < (line 10 input).length) (hn : n ≤ maxBytes + 1) :
      ReferenceRead maxBytes input (.error (.lineTooLong maxBytes)) (input.drop n)
  | text {bytes : List UInt8} {s : String} (hinput : input ≠ [])
      (hfit : (line 10 input).length ≤ maxBytes) (hchomped : Chomped (line 10 input) bytes)
      (hs : Utf8.decode bytes = some s) :
      ReferenceRead maxBytes input (.ok (some s)) (input.drop (line 10 input).length)
  | invalid {bytes : List UInt8} (hinput : input ≠ [])
      (hfit : (line 10 input).length ≤ maxBytes) (hchomped : Chomped (line 10 input) bytes)
      (hs : Utf8.decode bytes = none) :
      ReferenceRead maxBytes input (.error .invalidUtf8) (input.drop (line 10 input).length)

/-- Only an empty input ends before a line. -/
theorem ReferenceRead.eq_nil {maxBytes : Nat} {input rest : List UInt8}
    (h : ReferenceRead maxBytes input (.ok none) rest) : input = [] := by
  cases h
  assumption

theorem chomped_stripTerminator (input : List UInt8) :
    Chomped (line 10 input) (stripTerminator (line 10 input)) := by
  rcases line_spec 10 input with ⟨front, hline, -⟩ | hlf
  · rw [hline, stripTerminator, if_pos List.getLast?_concat, List.dropLast_concat]
    by_cases hcr : front.getLast? = some 13
    · obtain ⟨text, rfl⟩ := List.getLast?_eq_some_iff.mp hcr
      rw [if_pos hcr, List.dropLast_concat, List.append_assoc]
      exact .crlf text
    · rw [if_neg hcr]
      exact .lf hcr
  · have hlast : (line 10 input).getLast? ≠ some 10 := fun h => hlf (List.mem_of_getLast? h)
    rw [stripTerminator, if_neg hlast]
    exact .unterminated hlf

/-- Where no read fails, the reader is the reference, however the input arrives. -/
theorem readLineBounded_reference (chunks : List (List UInt8)) (maxBytes : Nat) :
    ReferenceRead maxBytes chunks.flatten (readLineBounded ⟨chunks, none⟩ maxBytes).1
      (readLineBounded ⟨chunks, none⟩ maxBytes).2.chunks.flatten := by
  have hbuf := fill_fst 10 (maxBytes + 1) chunks
  have hrest := fill_rest 10 (maxBytes + 1) chunks
  rw [← hbuf] at hrest
  rw [cut_eq_take] at hbuf
  unfold readLineBounded
  generalize fill 10 (maxBytes + 1) chunks = filled at hbuf hrest
  obtain ⟨buf, rest, hitEnd⟩ := filled
  dsimp only at hbuf hrest
  simp only [ite_self]
  by_cases hinput : chunks.flatten = []
  · obtain rfl : buf = [] := by simp [hbuf, hinput, line]
    rw [if_pos rfl]
    dsimp only
    rw [hrest, hinput]
    exact .atEnd rfl
  · have hline : line 10 chunks.flatten ≠ [] := fun h => hinput (line_eq_nil_iff.mp h)
    have hne : buf ≠ [] := by simpa [hbuf] using hline
    rw [if_neg hne]
    by_cases hlong : maxBytes < (line 10 chunks.flatten).length
    · have hlength : buf.length = maxBytes + 1 := by
        rw [hbuf, List.length_take]
        omega
      rw [if_pos (by omega)]
      dsimp only
      rw [hrest]
      exact .tooLong hlong hlength.le
    · obtain rfl : buf = line 10 chunks.flatten := by
        rw [hbuf, List.take_of_length_le (by omega)]
      have hchomped := chomped_stripTerminator chunks.flatten
      rw [if_neg hlong]
      cases hs : Utf8.decode (stripTerminator (line 10 chunks.flatten)) with
      | some s =>
          dsimp only
          rw [hrest]
          exact .text hinput (not_lt.mp hlong) hchomped hs
      | none =>
          dsimp only
          rw [hrest]
          exact .invalid hinput (not_lt.mp hlong) hchomped hs

/-! ### The limit as a machine word -/

/-- `read_line_bounded` with both numbers it works with: the limit of `take`, and
the one the buffer is held against. -/
def readLineWithin (r : Stream) (maxBytes limit : Nat) :
    Except ReadError (Option String) × Stream :=
  let (buf, rest, hitEnd) := fill 10 limit r.chunks
  let r' : Stream := { r with chunks := rest }
  match (if hitEnd then r.failure else none) with
  | some e => (.error (.io e), r')
  | none =>
      if buf = [] then (.ok none, r')
      else if maxBytes < buf.length then (.error (.lineTooLong maxBytes), r')
      else
        match Utf8.decode (stripTerminator buf) with
        | some s => (.ok (some s), r')
        | none => (.error .invalidUtf8, r')

/-- `read_line_bounded` of a 64-bit `usize`: `max_bytes as u64 + 1` wraps. -/
def readLineBoundedUsize (r : Stream) (maxBytes : UInt64) :
    Except ReadError (Option String) × Stream :=
  readLineWithin r maxBytes.toNat (maxBytes + 1).toNat

/-- The largest `usize`. -/
def usizeMax : UInt64 := 18446744073709551615

theorem toNat_add_one {maxBytes : UInt64} (h : maxBytes ≠ usizeMax) :
    (maxBytes + 1).toNat = maxBytes.toNat + 1 := by
  have hne : maxBytes.toNat ≠ 18446744073709551615 := fun heq => h (UInt64.toNat_inj.mp heq)
  have hlt := maxBytes.toNat_lt
  rw [UInt64.toNat_add]
  change (maxBytes.toNat + 1) % 2 ^ 64 = _
  omega

theorem readLineBoundedUsize_eq {maxBytes : UInt64} (h : maxBytes ≠ usizeMax) (r : Stream) :
    readLineBoundedUsize r maxBytes = readLineBounded r maxBytes.toNat := by
  rw [readLineBoundedUsize, toNat_add_one h]
  rfl

/-- With the largest limit nothing is read. -/
theorem readLineBoundedUsize_max (r : Stream) : readLineBoundedUsize r usizeMax = (.ok none, r) := by
  have hfill : fill 10 0 r.chunks = ([], r.chunks, false) := by
    cases r.chunks <;> rfl
  rw [readLineBoundedUsize, readLineWithin, show (usizeMax + 1).toNat = 0 from rfl, hfill]
  rfl

/-! ### Line after line -/

/-- The results of calling a reader `n` times. -/
def readLines (read : Stream → Except ReadError (Option String) × Stream) :
    Nat → Stream → List (Except ReadError (Option String))
  | 0, _ => []
  | n + 1, r => (read r).1 :: readLines read n (read r).2

/-- A text that can be sent as a line under a limit. -/
structure Sendable (maxBytes : Nat) (text : String) : Prop where
  lf : '\n' ∉ text.toList
  cr : text.toList.getLast? ≠ some '\r'
  fits : (Utf8.bytes text).length < maxBytes

theorem Sendable.line_eq {maxBytes : Nat} {text : String} (h : Sendable maxBytes text)
    (rest : List UInt8) :
    line 10 (Utf8.bytes text ++ 10 :: rest) = Utf8.bytes text ++ [10] := by
  refine line_append (fun hmem => h.lf ?_) rest
  exact Utf8.mem_charsBytes_of_ascii (by decide) hmem

/-- A terminated line without a final CR has one text. -/
theorem Chomped.eq_of_lf {front text : List UInt8} (hcr : front.getLast? ≠ some 13)
    (h : Chomped (front ++ [10]) text) : text = front := by
  generalize hwhole : front ++ [10] = whole at h
  cases h with
  | crlf =>
      have hfront : front = text ++ [13] := by
        have hsame : front ++ [10] = text ++ [13] ++ [10] := by
          rw [hwhole, List.append_assoc]
          rfl
        exact List.append_cancel_right hsame
      rw [hfront, List.getLast?_concat] at hcr
      exact absurd rfl hcr
  | lf => exact (List.append_cancel_right hwhole).symm
  | unterminated hlf =>
      rw [← hwhole] at hlf
      exact absurd (List.mem_append_right _ (List.mem_singleton_self 10)) hlf

/-- Reading leaves the connection's own failure where it is. -/
theorem readLineBounded_failure (r : Stream) (maxBytes : Nat) :
    (readLineBounded r maxBytes).2.failure = r.failure := by
  unfold readLineBounded
  generalize fill 10 (maxBytes + 1) r.chunks = filled
  obtain ⟨buf, rest, hitEnd⟩ := filled
  dsimp only
  cases (if hitEnd then r.failure else none) with
  | some e => rfl
  | none =>
      dsimp only
      split
      · rfl
      · split
        · rfl
        · cases Utf8.decode (stripTerminator buf) <;> rfl

/-- A line that was sent is read back, and what was sent after it is left. -/
theorem readLineBounded_sendable {maxBytes : Nat} {text : String} (h : Sendable maxBytes text)
    {chunks : List (List UInt8)} {rest : List UInt8}
    (hchunks : chunks.flatten = Utf8.bytes text ++ 10 :: rest) :
    (readLineBounded ⟨chunks, none⟩ maxBytes).1 = .ok (some text) ∧
      (readLineBounded ⟨chunks, none⟩ maxBytes).2.chunks.flatten = rest := by
  have href := readLineBounded_reference chunks maxBytes
  have hcr : (Utf8.bytes text).getLast? ≠ some 13 := fun hlast =>
    h.cr (Utf8.getLast_of_ascii (by decide) hlast)
  have hfits := h.fits
  rw [hchunks] at href
  generalize (readLineBounded ⟨chunks, none⟩ maxBytes).1 = result at href ⊢
  generalize (readLineBounded ⟨chunks, none⟩ maxBytes).2.chunks.flatten = left at href ⊢
  have hlength : (line 10 (Utf8.bytes text ++ 10 :: rest)).length = (Utf8.bytes text).length + 1 := by
    rw [h.line_eq, List.length_append]
    rfl
  cases href with
  | atEnd hinput => simp at hinput
  | tooLong hlong => omega
  | text hinput hfit hchomped hs =>
      rw [h.line_eq] at hchomped
      rw [hchomped.eq_of_lf hcr, Utf8.decode_bytes, Option.some.injEq] at hs
      refine ⟨by rw [hs], ?_⟩
      rw [h.line_eq, show Utf8.bytes text ++ 10 :: rest = Utf8.bytes text ++ [10] ++ rest by simp]
      exact List.drop_left
  | invalid hinput hfit hchomped hs =>
      rw [h.line_eq] at hchomped
      rw [hchomped.eq_of_lf hcr, Utf8.decode_bytes] at hs
      cases hs

/-- What lines look like on the wire. -/
def wire (lines : List String) : List UInt8 := lines.flatMap fun l => Utf8.bytes l ++ [10]

/-- Called again and again, the reader returns the lines that were sent and then
the end. -/
theorem readLines_sendable {maxBytes : Nat} {lines : List String}
    (h : ∀ l ∈ lines, Sendable maxBytes l) {chunks : List (List UInt8)}
    (hchunks : chunks.flatten = wire lines) :
    readLines (readLineBounded · maxBytes) (lines.length + 1) ⟨chunks, none⟩ =
      lines.map (fun l => .ok (some l)) ++ [.ok none] := by
  induction lines generalizing chunks with
  | nil =>
      have href := readLineBounded_reference chunks maxBytes
      rw [hchunks] at href
      show [(readLineBounded ⟨chunks, none⟩ maxBytes).1] = [.ok none]
      generalize (readLineBounded ⟨chunks, none⟩ maxBytes).1 = result at href ⊢
      generalize (readLineBounded ⟨chunks, none⟩ maxBytes).2.chunks.flatten = left at href
      cases href with
      | atEnd => rfl
      | tooLong hlong => simp [wire, line] at hlong
      | text hinput => exact absurd rfl hinput
      | invalid hinput => exact absurd rfl hinput
  | cons l lines ih =>
      rw [List.forall_mem_cons] at h
      have hwire : chunks.flatten = Utf8.bytes l ++ 10 :: wire lines := by
        rw [hchunks, wire, List.flatMap_cons, List.append_assoc]
        rfl
      obtain ⟨hread, hleft⟩ := readLineBounded_sendable h.1 hwire
      have hfailure := readLineBounded_failure ⟨chunks, none⟩ maxBytes
      rw [List.length_cons, readLines, hread]
      generalize (readLineBounded ⟨chunks, none⟩ maxBytes).2 = after at hfailure hleft ⊢
      obtain ⟨left, failure⟩ := after
      dsimp only at hfailure hleft
      subst hfailure
      rw [ih h.2 hleft]
      rfl

/-! ### Which limits the reader keeps -/

/-- The reader is the reference splitter, and returns the lines that were sent,
exactly for the limits below the largest one — or where there is nothing to
read. -/
theorem reads_as_reference_iff (maxBytes : UInt64) :
    (∀ chunks : List (List UInt8),
      ReferenceRead maxBytes.toNat chunks.flatten (readLineBoundedUsize ⟨chunks, none⟩ maxBytes).1
          (readLineBoundedUsize ⟨chunks, none⟩ maxBytes).2.chunks.flatten ↔
        maxBytes ≠ usizeMax ∨ chunks.flatten = []) ∧
    ∀ (lines : List String) (chunks : List (List UInt8)),
      (∀ l ∈ lines, Sendable maxBytes.toNat l) → chunks.flatten = wire lines →
      (readLines (readLineBoundedUsize · maxBytes) (lines.length + 1) ⟨chunks, none⟩ =
          lines.map (fun l => .ok (some l)) ++ [.ok none] ↔
        maxBytes ≠ usizeMax ∨ lines = []) := by
  by_cases hmax : maxBytes = usizeMax
  · subst hmax
    simp only [readLineBoundedUsize_max, ne_eq, not_true_eq_false, false_or]
    constructor
    · intro chunks
      constructor
      · exact ReferenceRead.eq_nil
      · intro hempty
        rw [hempty]
        exact .atEnd rfl
    · intro lines chunks h hchunks
      cases lines with
      | nil => exact iff_of_true rfl rfl
      | cons l lines =>
          refine iff_of_false (fun hreads => ?_) (List.cons_ne_nil l lines)
          cases (List.cons.inj hreads).1
  · simp only [readLineBoundedUsize_eq hmax, ne_eq, hmax, not_false_eq_true, true_or, iff_true]
    exact ⟨fun chunks => readLineBounded_reference chunks _,
      fun lines chunks h hchunks => readLines_sendable h hchunks⟩

/-- A greeting is not read under the largest limit. -/
theorem largest_limit_reads_nothing :
    ¬ ∀ (maxBytes : UInt64) (chunks : List (List UInt8)),
      ReferenceRead maxBytes.toNat chunks.flatten (readLineBoundedUsize ⟨chunks, none⟩ maxBytes).1
        (readLineBoundedUsize ⟨chunks, none⟩ maxBytes).2.chunks.flatten := by
  intro h
  have href := h usizeMax [[104, 105, 10]]
  rw [readLineBoundedUsize_max] at href
  cases href.eq_nil

end OmarchyKids
