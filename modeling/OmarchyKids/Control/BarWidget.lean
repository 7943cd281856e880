import OmarchyKids.Control.Outcomes
import OmarchyKids.Lib.JsonCut

/-!
# OmarchyKids.Control.BarWidget

The desktop panel's widget: what it makes of the cache that the headless poll leaves.

A cache is read as its entries, in their order (`parseCache_take`); one that has been cut short
is no JSON, and then there are no rows (`parseCache_cut`).
-/

namespace OmarchyKids

open JsonText (Value)

/-! ### The widget -/

namespace BarWidget

/-- A property of an object: the last member of this name. -/
def property (name : String) : Value → Option Value
  | .obj members => (members.reverse.find? fun m => m.1 = name).map Prod.snd
  | _ => none

/-- What counts as true in a condition. -/
def truthy : Option Value → Bool
  | none => false
  | some .null => false
  | some (.bool b) => b
  | some (.num mantissa _) => mantissa != 0
  | some (.str s) => s != ""
  | some _ => true

def isOnline (h : Value) : Bool := truthy (property "online" h)

/-- `parseCache`: the hosts in a text. What is no JSON, or no array, holds none. -/
def parseCache (content : String) : List Value :=
  let text := if content = "" then "[]" else content
  match JsonText.decode text.toList with
  | some (.arr parsed) => parsed
  | _ => []

/-- The name in a row, which is a text if it is there. -/
def rowName (h : Value) : String :=
  match property "name" h with
  | some (.str s) => s
  | _ => ""

/-- Name and reachability, as a row shows them. -/
def row (h : Value) : String × String :=
  (rowName h, if isOnline h then "online" else "offline")

def onlineCount (hosts : List Value) : Nat := (hosts.filter isOnline).length

/-- The icon is highlighted. -/
def anyOffline (hosts : List Value) : Bool :=
  decide (0 < hosts.length ∧ onlineCount hosts < hosts.length)

theorem anyOffline_iff (hosts : List Value) :
    anyOffline hosts = true ↔ ∃ h ∈ hosts, isOnline h = false := by
  rw [anyOffline, decide_eq_true_iff, onlineCount]
  constructor
  · intro ⟨_, hlt⟩
    by_contra hall
    have hfilter : hosts.filter isOnline = hosts := by
      refine List.filter_eq_self.mpr fun h hh => ?_
      by_contra hoff
      exact hall ⟨h, hh, Bool.eq_false_iff.mpr hoff⟩
    rw [hfilter] at hlt
    omega
  · intro ⟨h, hh, hoff⟩
    refine ⟨List.length_pos_of_mem hh, ?_⟩
    rcases (List.length_filter_le isOnline hosts).lt_or_eq with hlt | heq
    · exact hlt
    · rw [List.length_filter_eq_length_iff] at heq
      rw [heq h hh] at hoff
      cases hoff

/-! ### What a poll leaves -/

/-- The beginning of a cache as a text, and what is missing. -/
theorem exists_missing {cache : StatusCache} {n : Nat} {content : String}
    (h : Utf8.bytes content = cache.write.take n) :
    ∃ missing, content.toList ++ missing = StatusCache.fileChars cache.entries ∧
      (Utf8.charsBytes missing).length = cache.write.length - n := by
  have hall : Utf8.charsBytes content.toList ++ cache.write.drop n =
      Utf8.charsBytes (StatusCache.fileChars cache.entries) := by
    rw [← StatusCache.write_eq, ← Utf8.bytes, h, List.take_append_drop]
  obtain ⟨missing, hmissing⟩ := Utf8.prefix_of_charsBytes hall
  refine ⟨missing, hmissing, ?_⟩
  rw [← hmissing, Utf8.charsBytes_append] at hall
  rw [← List.append_cancel_left hall, List.length_drop]

/-- The entries of a cache, as the widget reads them back; the last line feed may be missing. -/
theorem parseCache_take {cache : StatusCache} {n : Nat} {content : String}
    (hn : cache.write.length ≤ n + 1) (h : Utf8.bytes content = cache.write.take n) :
    parseCache content = cache.entries.map HostStatus.toValue := by
  obtain ⟨missing, hmissing, hlength⟩ := exists_missing h
  have hdecode : JsonText.decode content.toList =
      some (.arr (cache.entries.map HostStatus.toValue)) := by
    rcases List.eq_nil_or_concat missing with rfl | ⟨front, c, rfl⟩
    · rw [List.append_nil] at hmissing
      rw [hmissing]
      exact JsonText.decode_of_document (StatusCache.document_file _)
    · rw [List.concat_eq_append] at hmissing hlength
      have hshort : (Utf8.charsBytes (front ++ [c])).length ≤ 1 := by omega
      obtain rfl : front = [] := by
        cases front with
        | nil => rfl
        | cons d front =>
            have hd := Char.utf8Size_pos d
            have hc := Char.utf8Size_pos c
            simp only [Utf8.length_charsBytes, List.cons_append, List.map_cons, List.map_append,
              List.map_nil, List.sum_cons, List.sum_append, List.sum_nil] at hshort
            omega
      rw [List.nil_append, StatusCache.fileChars] at hmissing
      obtain ⟨hbody, -⟩ := List.append_inj' hmissing rfl
      rw [hbody]
      exact JsonText.decode_of_document (StatusCache.document_fileBody _)
  have hne : content ≠ "" := by
    rintro rfl
    have hnone : JsonText.decode [] = none := rfl
    rw [show ("" : String).toList = [] from rfl, hnone] at hdecode
    cases hdecode
  rw [parseCache, if_neg hne, hdecode]

/-- If at most the last line feed is missing, it is a text. -/
theorem exists_content {cache : StatusCache} {n : Nat} (hn : cache.write.length ≤ n + 1) :
    ∃ content, Utf8.bytes content = cache.write.take n := by
  let body := '[' :: ('\n' :: StatusCache.linesChars cache.entries ++ [']'])
  have hwrite : cache.write = Utf8.charsBytes body ++ [10] := by
    rw [StatusCache.write_eq, StatusCache.fileChars, Utf8.charsBytes_append]
    rfl
  rcases Nat.lt_or_ge n cache.write.length with hlt | hge
  · have hlength : (Utf8.charsBytes body).length = n := by
      rw [hwrite, List.length_append, List.length_singleton] at hn hlt
      omega
    refine ⟨String.ofList body, ?_⟩
    rw [Utf8.bytes_ofList, hwrite, ← hlength, List.take_left]
  · refine ⟨String.ofList (StatusCache.fileChars cache.entries), ?_⟩
    rw [Utf8.bytes_ofList, List.take_of_length_le hge, StatusCache.write_eq]

/-- Unless the line feed alone is missing, the closing bracket is. -/
theorem bracket_mem_missing {read missing body : List Char}
    (h : read ++ missing = body ++ [']', '\n']) (hlength : 1 < (Utf8.charsBytes missing).length) :
    ']' ∈ missing := by
  rcases List.eq_nil_or_concat missing with rfl | ⟨front, c, rfl⟩
  · cases hlength
  · rw [List.concat_eq_append] at h hlength ⊢
    rw [show body ++ [']', '\n'] = body ++ [']'] ++ ['\n'] by simp, ← List.append_assoc] at h
    obtain ⟨hfront, hc⟩ := List.append_inj' h rfl
    rcases List.eq_nil_or_concat front with rfl | ⟨front, d, rfl⟩
    · rw [hc] at hlength
      exact absurd hlength (by decide)
    · rw [List.concat_eq_append, ← List.append_assoc] at hfront
      obtain ⟨-, hd⟩ := List.append_inj' hfront rfl
      simp [List.singleton_inj.mp hd]

/-- Of a cache that is cut short it makes nothing. -/
theorem parseCache_cut {cache : StatusCache} {n : Nat} {content : String}
    (hn : n + 1 < cache.write.length) (h : Utf8.bytes content = cache.write.take n) :
    parseCache content = [] := by
  obtain ⟨missing, hmissing, hlength⟩ := exists_missing h
  rw [parseCache]
  by_cases hempty : content = ""
  · rw [if_pos hempty]
    rfl
  · rw [if_neg hempty]
    have hdecode : JsonText.decode content.toList = none := by
      have hne : content.toList ≠ [] := by
        rwa [Ne, String.toList_eq_nil_iff]
      obtain ⟨c, cs, hcontent⟩ := List.exists_cons_of_ne_nil hne
      rw [hcontent] at hmissing ⊢
      have hfile : StatusCache.fileChars cache.entries =
          '[' :: '\n' :: StatusCache.linesChars cache.entries ++ [']', '\n'] := by
        simp [StatusCache.fileChars]
      obtain ⟨rfl, -⟩ := List.cons.inj (hmissing.trans hfile)
      have hall := JsonText.decode_of_document (StatusCache.document_file cache.entries)
      rw [← hmissing] at hall
      refine JsonText.decode_eq_none_of_cut hall fun hblank => ?_
      have hspace := hblank ']' (bracket_mem_missing (hmissing.trans hfile) (by omega))
      cases hspace
    rw [hdecode]

theorem row_toValue (e : HostStatus) :
    row e.toValue = (e.name, if e.online then "online" else "offline") := by
  simp [row, rowName, isOnline, property, truthy, HostStatus.toValue]

theorem isOnline_toValue (e : HostStatus) : isOnline e.toValue = e.online := by
  simp [isOnline, property, truthy, HostStatus.toValue]

end BarWidget

/-- The daemon has said yes. -/
def Outcome.accepted : Outcome → Bool
  | answered resp => resp.ok
  | _ => false

end OmarchyKids
