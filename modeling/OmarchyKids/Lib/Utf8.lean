import Mathlib

/-!
# OmarchyKids.Lib.Utf8

The UTF-8 octets of a text as a list, and the decoder back. Only three facts
are needed of the encoding: it round-trips (`decode_bytes`), it is a
concatenation over the characters (`bytes_append`), and an ASCII octet occurs in
it only where the ASCII character does (`mem_charsBytes_of_ascii`) — multi-byte
sequences consist of octets ≥ 0x80.
-/

namespace Utf8

/-- The UTF-8 octets of a list of characters. -/
def charsBytes (cs : List Char) : List UInt8 := cs.flatMap String.utf8EncodeChar

/-- The UTF-8 octets of a text. -/
def bytes (s : String) : List UInt8 := charsBytes s.toList

/-- Strict UTF-8 decoding (`String::from_utf8`). -/
def decode (bs : List UInt8) : Option String := String.fromUTF8? bs.toByteArray

@[simp] theorem charsBytes_nil : charsBytes [] = [] := rfl

@[simp] theorem charsBytes_cons (c : Char) (cs : List Char) :
    charsBytes (c :: cs) = String.utf8EncodeChar c ++ charsBytes cs := rfl

@[simp] theorem charsBytes_append (cs ds : List Char) :
    charsBytes (cs ++ ds) = charsBytes cs ++ charsBytes ds := by
  simp [charsBytes]

@[simp] theorem bytes_append (s t : String) : bytes (s ++ t) = bytes s ++ bytes t := by
  simp [bytes]

@[simp] theorem bytes_ofList (cs : List Char) : bytes (String.ofList cs) = charsBytes cs := by
  simp [bytes]

theorem toByteArray_bytes (s : String) : (bytes s).toByteArray = s.toByteArray := by
  rw [← String.utf8Encode_toList]
  rfl

/-- Encoding and decoding again gives the text back. -/
@[simp] theorem decode_bytes (s : String) : decode (bytes s) = some s := by
  have h : s.toByteArray.IsValidUTF8 := s.isValidUTF8
  rw [decode, toByteArray_bytes, String.fromUTF8?, dif_pos h]
  rfl

/-- A text whose octets are the first of another's is its beginning. -/
theorem prefix_of_charsBytes {cs ds : List Char} {more : List UInt8}
    (h : charsBytes cs ++ more = charsBytes ds) : cs <+: ds := by
  refine List.isPrefix_of_utf8Encode_append_eq_utf8Encode more.toByteArray ?_
  have hbytes : (charsBytes cs ++ more).toByteArray = (charsBytes ds).toByteArray := by rw [h]
  rw [List.toByteArray_append] at hbytes
  exact hbytes

theorem length_charsBytes (cs : List Char) :
    (charsBytes cs).length = (cs.map Char.utf8Size).sum := by
  induction cs with
  | nil => rfl
  | cons c cs ih => simp [ih]

/-! ### ASCII octets -/

/-- An octet below 0x80 is a whole sequence: every octet of a multi-byte
sequence has its high bit set. -/
theorem utf8EncodeChar_of_ascii {c : Char} {b : UInt8} (hb : b.toNat < 0x80)
    (h : b ∈ String.utf8EncodeChar c) : c.toNat = b.toNat := by
  revert h
  fun_cases String.utf8EncodeChar c with
  | case1 v hv =>
      intro h
      rw [List.mem_singleton] at h
      subst h
      show v = (UInt8.ofNat v).toNat
      rw [UInt8.toNat_ofNat']
      omega
  | case2 v h1 h2 =>
      intro h
      exfalso
      simp only [List.mem_cons, List.not_mem_nil, or_false] at h
      rcases h with rfl | rfl <;> rw [UInt8.toNat_ofNat'] at hb <;> omega
  | case3 v h1 h2 h3 =>
      intro h
      exfalso
      simp only [List.mem_cons, List.not_mem_nil, or_false] at h
      rcases h with rfl | rfl | rfl <;> rw [UInt8.toNat_ofNat'] at hb <;> omega
  | case4 v h1 h2 h3 =>
      intro h
      exfalso
      simp only [List.mem_cons, List.not_mem_nil, or_false] at h
      rcases h with rfl | rfl | rfl | rfl <;> rw [UInt8.toNat_ofNat'] at hb <;> omega

/-- An ASCII octet of an encoded text comes from the ASCII character. -/
theorem mem_charsBytes_of_ascii {cs : List Char} {b : UInt8} (hb : b.toNat < 0x80)
    (h : b ∈ charsBytes cs) : Char.ofNat b.toNat ∈ cs := by
  obtain ⟨c, hc, hbc⟩ := List.mem_flatMap.mp h
  rw [← utf8EncodeChar_of_ascii hb hbc, Char.ofNat_toNat]
  exact hc

/-- An ASCII octet at the end comes from the last character. -/
theorem getLast_of_ascii {cs : List Char} {b : UInt8} (hb : b.toNat < 0x80)
    (h : (charsBytes cs).getLast? = some b) : cs.getLast? = some (Char.ofNat b.toNat) := by
  rcases List.eq_nil_or_concat cs with rfl | ⟨front, c, rfl⟩
  · cases h
  · have hne : String.utf8EncodeChar c ≠ [] := by
      rw [← List.length_pos_iff, String.length_utf8EncodeChar]
      exact Char.utf8Size_pos c
    rw [List.concat_eq_append, charsBytes_append, charsBytes_cons, charsBytes_nil, List.append_nil,
      List.getLast?_append_of_ne_nil _ hne] at h
    rw [List.concat_eq_append, List.getLast?_concat,
      ← utf8EncodeChar_of_ascii hb (List.mem_of_getLast? h), Char.ofNat_toNat]

/-- Only ASCII characters: one octet each. -/
def Ascii (cs : List Char) : Prop := ∀ c ∈ cs, c.toNat < 0x80

theorem ascii_cons {c : Char} {cs : List Char} : Ascii (c :: cs) ↔ c.toNat < 0x80 ∧ Ascii cs :=
  List.forall_mem_cons

theorem ascii_append {cs ds : List Char} : Ascii (cs ++ ds) ↔ Ascii cs ∧ Ascii ds :=
  List.forall_mem_append

theorem utf8EncodeChar_ascii {c : Char} (h : c.toNat < 0x80) :
    String.utf8EncodeChar c = [UInt8.ofNat c.toNat] := by
  have hle : c.val.toNat ≤ 0x7f := Nat.le_of_lt_succ h
  rw [String.utf8EncodeChar]
  exact if_pos hle

/-- The octets of ASCII texts are ordered as the texts are. -/
theorem charsBytes_lt_iff {cs ds : List Char} (hc : Ascii cs) (hd : Ascii ds) :
    charsBytes cs < charsBytes ds ↔ cs < ds := by
  induction cs generalizing ds with
  | nil =>
      cases ds with
      | nil => simp
      | cons d ds =>
          rw [charsBytes_cons, utf8EncodeChar_ascii (ascii_cons.mp hd).1]
          simp
  | cons c cs ih =>
      cases ds with
      | nil => simp
      | cons d ds =>
          obtain ⟨hc, hcs⟩ := ascii_cons.mp hc
          obtain ⟨hd, hds⟩ := ascii_cons.mp hd
          have hoctet : ∀ {a : Char}, a.toNat < 0x80 → (UInt8.ofNat a.toNat).toNat = a.toNat := by
            intro a ha
            rw [UInt8.toNat_ofNat']
            omega
          have hlt : UInt8.ofNat c.toNat < UInt8.ofNat d.toNat ↔ c < d := by
            rw [UInt8.lt_iff_toNat_lt, hoctet hc, hoctet hd]
            rfl
          have heq : UInt8.ofNat c.toNat = UInt8.ofNat d.toNat ↔ c = d := by
            rw [← UInt8.toNat_inj, hoctet hc, hoctet hd, Char.toNat_inj]
          rw [charsBytes_cons, charsBytes_cons, utf8EncodeChar_ascii hc, utf8EncodeChar_ascii hd,
            List.singleton_append, List.singleton_append, List.cons_lt_cons_iff,
            List.cons_lt_cons_iff, hlt, heq, ih hcs hds]

end Utf8
