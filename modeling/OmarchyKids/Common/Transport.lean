import OmarchyKids.Common.Protocol
import OmarchyKids.Lib.ByteStream

/-!
# OmarchyKids.Common.Transport

The bounded line reader that the daemon, its clients and both ends of the
pairing protocol share, and the client side of one request.

The reader is characterised by what it does on a stream that holds one whole
line (`readLineBounded_line`): it returns the line if line and terminator fit in
the limit, and an error otherwise — however the bytes are split into chunks.
-/

namespace OmarchyKids

/-- The cap for one newline-delimited JSON message. -/
def maxLineBytes : Nat := 64 * 1024

/-- What is still to be read from a connection: the chunks on their way, and the
I/O error (if any) that stands where the end of the input would be. -/
structure Stream where
  chunks : List (List UInt8)
  failure : Option String := none
  deriving DecidableEq, Repr

inductive ReadError
  | io (e : String)
  | lineTooLong (maxBytes : Nat)
  | invalidUtf8
  deriving DecidableEq, Repr

/-- Strips a final line feed and a carriage return before it. -/
def stripTerminator (buf : List UInt8) : List UInt8 :=
  if buf.getLast? = some 10 then
    let buf := buf.dropLast
    if buf.getLast? = some 13 then buf.dropLast else buf
  else buf

/-- Reads one newline-terminated line, refusing to buffer past `maxBytes`.
`none` is a clean end of input before any byte. -/
def readLineBounded (r : Stream) (maxBytes : Nat) : Except ReadError (Option String) × Stream :=
  let (buf, rest, hitEnd) := ByteStream.fill 10 (maxBytes + 1) r.chunks
  let r' : Stream := { r with chunks := rest }
  match (if hitEnd then r.failure else none) with
  | some e => (.error (.io e), r')
  | none =>
      if buf = [] then (.ok none, r')
      else if maxBytes < buf.length then (.error (.lineTooLong maxBytes), r')
      else
        match Utf8.decode (stripTerminator buf) with
        | some s => (.ok (some s), r')
        | none => (.error .invalidUtf8, r')

/-- Where no read fails, only the octets count, not how they are split. -/
theorem readLineBounded_congr {chunks chunks' : List (List UInt8)} {maxBytes : Nat}
    (h : ByteStream.cut 10 (maxBytes + 1) chunks.flatten =
      ByteStream.cut 10 (maxBytes + 1) chunks'.flatten) :
    (readLineBounded ⟨chunks, none⟩ maxBytes).1 = (readLineBounded ⟨chunks', none⟩ maxBytes).1 := by
  rw [← ByteStream.fill_fst, ← ByteStream.fill_fst] at h
  unfold readLineBounded
  simp only [ite_self, h]
  split
  · rfl
  · split
    · rfl
    · cases Utf8.decode (stripTerminator (ByteStream.fill 10 (maxBytes + 1) chunks').1) <;> rfl

/-- A line that neither contains a line feed nor ends in a carriage return, sent
with its terminator and nothing after it, is read back exactly when it fits in
the limit; a longer one is refused. -/
theorem readLineBounded_line {line : List UInt8} {text : String} {chunks : List (List UInt8)}
    (maxBytes : Nat) (hchunks : chunks.flatten = line ++ [10]) (hlf : 10 ∉ line)
    (hcr : line.getLast? ≠ some 13) (htext : Utf8.decode line = some text) :
    (readLineBounded ⟨chunks, none⟩ maxBytes).1 =
      if line.length + 1 ≤ maxBytes then .ok (some text) else .error (.lineTooLong maxBytes) := by
  have hcut : (ByteStream.fill 10 (maxBytes + 1) chunks).1 =
      if line.length < maxBytes + 1 then line ++ [10] else line.take (maxBytes + 1) := by
    rw [ByteStream.fill_fst, hchunks]
    exact ByteStream.cut_line hlf (maxBytes + 1) []
  unfold readLineBounded
  rcases hfill : ByteStream.fill 10 (maxBytes + 1) chunks with ⟨buf, rest, hitEnd⟩
  rw [hfill] at hcut
  simp only [ite_self]
  by_cases hfit : line.length + 1 ≤ maxBytes
  · -- line and terminator fit: the buffer is the whole line
    obtain rfl : buf = line ++ [10] := by simpa [show line.length < maxBytes + 1 by omega] using hcut
    have hstrip : stripTerminator (line ++ [10]) = line := by
      simp [stripTerminator, hcr]
    simp [hstrip, htext, hfit, show ¬ maxBytes < line.length + 1 by omega]
  · -- one byte too many is enough for the reader to refuse
    have hlen : buf.length = maxBytes + 1 := by
      rw [show buf = _ from hcut]
      split
      · rw [List.length_append, List.length_singleton]
        omega
      · rw [List.length_take]
        omega
    have hne : buf ≠ [] := by
      rintro rfl
      simp at hlen
    simp [hne, hlen, hfit]

/-! ### The client side of a request -/

inductive SendError
  | connect (e : String)
  | io (e : ReadError)
  | decode
  /-- The connection closed without a response line. -/
  | noResponse
  deriving DecidableEq, Repr

/-- The second half of `transport::send`: reads and decodes the response line.
`fromStr` is `serde_json::from_str::<Response>`. -/
def receive (fromStr : String → Option Response) (r : Stream) : Except SendError Response :=
  match (readLineBounded r maxLineBytes).1 with
  | .error e => .error (.io e)
  | .ok none => .error .noResponse
  | .ok (some line) =>
      match fromStr line with
      | some resp => .ok resp
      | none => .error .decode

end OmarchyKids
