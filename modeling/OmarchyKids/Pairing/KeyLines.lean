import Mathlib
import OmarchyKids.Lib.Lines
import OmarchyKids.Pairing.Agreement

/-!
# OmarchyKids.Pairing.KeyLines

`authorized_keys` as `sshd` reads it, line by line.

`write_to_authorized_keys` takes a key as installed when its text occurs anywhere
in the file, and appends its entry without looking at the last octet. So its
success means that the entry is a line of the file exactly when the text occurs in
that line, or the file did not end in the middle of a line
(`write_installs_line_iff`).
-/

namespace OmarchyKids.Pairing

open Lines

/-- The key's text already occurs in the file as it can be read. -/
def Mentions (m : Machine) (pubkey : String) (file : KeysFile) : Prop :=
  Text.trim pubkey.toList <:+: (readToStringOrEmpty m.readable file).toList

/-- The key's line, in octets. -/
def entryBytes (pubkey : String) : List UInt8 :=
  Utf8.bytes (restrictedEntry (Text.trim pubkey.toList))

instance (m : Machine) (pubkey : String) (file : KeysFile) : Decidable (Mentions m pubkey file) :=
  inferInstanceAs (Decidable (_ <:+: _))

/-- The lines of the file. -/
def keyLines (file : KeysFile) : List (List UInt8) := lines 10 (file.getD [])

/-- The entry for a key, without its line break. -/
def entryLine (pubkey : String) : List UInt8 := (entryBytes pubkey).dropLast

/-- What a successful installation is for: the old lines stay, at most one is added
at the end, and one of the lines is the restricted entry. -/
structure InstallsLine (pubkey : String) (before after : KeysFile) : Prop where
  kept : keyLines after = keyLines before ∨ ∃ line, keyLines after = keyLines before ++ [line]
  installed : entryLine pubkey ∈ keyLines after

/-! ### The entry is one line -/

theorem bytes_newline : Utf8.bytes "\n" = [10] := by decide +kernel

theorem entryBytes_eq_entryLine (pubkey : String) : entryBytes pubkey = entryLine pubkey ++ [10] := by
  unfold entryLine entryBytes restrictedEntry
  rw [Utf8.bytes_append, bytes_newline, List.dropLast_concat]

theorem entryLine_ne_nil (pubkey : String) : entryLine pubkey ≠ [] := by
  unfold entryLine entryBytes restrictedEntry
  rw [Utf8.bytes_append, bytes_newline, List.dropLast_concat, Utf8.bytes_append]
  exact List.append_ne_nil_of_left_ne_nil (by decide +kernel) _

/-- A key that is accepted has no line break within. -/
theorem newline_notMem_of_accepted {m : Machine} {pubkey fingerprint : String}
    (h : validateAndFingerprint m pubkey = .ok fingerprint) : '\n' ∉ Text.trim pubkey.toList := by
  intro hmem
  rw [validateAndFingerprint] at h
  simp only [hmem, true_or, if_true] at h
  cases h

theorem newline_notMem_entryLine {m : Machine} {pubkey fingerprint : String}
    (h : validateAndFingerprint m pubkey = .ok fingerprint) : 10 ∉ entryLine pubkey := by
  have hkey : 10 ∉ Utf8.charsBytes (Text.trim pubkey.toList) := fun hmem =>
    newline_notMem_of_accepted h (Utf8.mem_charsBytes_of_ascii (by decide) hmem)
  unfold entryLine entryBytes restrictedEntry
  rw [Utf8.bytes_append, bytes_newline, List.dropLast_concat, Utf8.bytes_append,
    Utf8.bytes_ofList (Text.trim pubkey.toList), List.mem_append, not_or]
  refine ⟨?_, hkey⟩
  decide +kernel

/-! ### What is written -/

/-- The child gets as far as to write: the key's text is new to the file as it can be
read, there is a home directory, and `~/.ssh` and the file can be opened. -/
structure Appends (m : Machine) (pubkey : String) (file : KeysFile) : Prop where
  new : ¬ Mentions m pubkey file
  home : m.home ≠ none
  directory : m.createDirAll = none
  opens : m.openAppend = none

/-- How many octets of the entry get out: all, unless the write fails. -/
def Machine.written (m : Machine) (pubkey : String) : Nat :=
  (m.writeAll.map Prod.fst).getD (entryBytes pubkey).length

theorem writeToAuthorizedKeys_of_appends {m : Machine} {pubkey : String} {file : KeysFile}
    (h : Appends m pubkey file) :
    (writeToAuthorizedKeys m pubkey file).2 =
      some (file.getD [] ++ (entryBytes pubkey).take (m.written pubkey)) := by
  obtain ⟨hnew, hhome, hdirectory, hopens⟩ := h
  obtain ⟨home, hhome⟩ := Option.ne_none_iff_exists'.mp hhome
  rw [Mentions] at hnew
  rw [writeToAuthorizedKeys]
  simp only [hhome, hdirectory, hopens, if_neg hnew]
  cases hwrite : m.writeAll with
  | some failure =>
      rw [Machine.written, hwrite]
      rfl
  | none =>
      rw [Machine.written, hwrite, Option.map_none, Option.getD_none, List.take_length]
      cases m.setPermissions <;> rfl

theorem writeToAuthorizedKeys_of_not_appends {m : Machine} {pubkey : String} {file : KeysFile}
    (h : ¬ Appends m pubkey file) : (writeToAuthorizedKeys m pubkey file).2 = file := by
  rw [writeToAuthorizedKeys]
  dsimp only
  cases hhome : m.home with
  | none => rfl
  | some home =>
      cases hdirectory : m.createDirAll with
      | some e => rfl
      | none =>
          dsimp only
          split
          · rfl
          · next hnew =>
              cases hopens : m.openAppend with
              | some e => rfl
              | none =>
                  exact absurd ⟨hnew, by rw [hhome]; exact Option.some_ne_none home, hdirectory,
                    hopens⟩ h

/-- What precedes the octets stays: the complete lines, and the beginning of a line
that the octets go on with. -/
theorem entryLine_mem_append_iff {pubkey : String} (hline : 10 ∉ entryLine pubkey) (file : KeysFile)
    (n : Nat) :
    entryLine pubkey ∈ keyLines (some (file.getD [] ++ (entryBytes pubkey).take n)) ↔
      entryLine pubkey ∈ (split 10 (file.getD [])).1 ∨
        (split 10 (file.getD [])).2 ++ (entryLine pubkey).take n = entryLine pubkey := by
  have hrest : 10 ∉ (split 10 (file.getD [])).2 ++ (entryLine pubkey).take n := by
    rw [List.mem_append, not_or]
    exact ⟨notMem_rest _, fun hmem => hline (List.mem_of_mem_take hmem)⟩
  rw [keyLines, Option.getD_some, lines_append, List.mem_append, entryBytes_eq_entryLine]
  refine or_congr_right ?_
  rcases Nat.lt_or_ge (entryLine pubkey).length n with hwhole | hpart
  · -- the line break is written too
    rw [List.take_of_length_le (by simpa using hwhole)]
    rw [List.take_of_length_le hwhole.le] at hrest ⊢
    rw [← List.append_assoc, lines_line hrest, List.mem_singleton, eq_comm]
  · rw [List.take_append_of_le_length hpart, mem_lines_of_notMem hrest (entryLine_ne_nil pubkey)]

/-! ### What success leaves -/

/-- A success either found the key's text in the file or appended the whole entry. -/
theorem writeToAuthorizedKeys_ok {m : Machine} {pubkey : String} {before after : KeysFile}
    (h : writeToAuthorizedKeys m pubkey before = (.ok (), after)) :
    after = if Mentions m pubkey before then before
      else some (before.getD [] ++ entryBytes pubkey) := by
  rw [writeToAuthorizedKeys] at h
  dsimp only at h
  cases hhome : m.home with
  | none =>
      rw [hhome] at h
      cases (Prod.mk.inj h).1
  | some home =>
      rw [hhome] at h
      cases hdirectory : m.createDirAll with
      | some e =>
          rw [hdirectory] at h
          cases (Prod.mk.inj h).1
      | none =>
          rw [hdirectory] at h
          dsimp only at h
          by_cases hmentions : Mentions m pubkey before
          · rw [if_pos hmentions]
            rw [Mentions] at hmentions
            rw [if_pos hmentions] at h
            exact (Prod.mk.inj h).2.symm
          · rw [if_neg hmentions]
            rw [Mentions] at hmentions
            rw [if_neg hmentions] at h
            cases hopen : m.openAppend with
            | some e =>
                rw [hopen] at h
                cases (Prod.mk.inj h).1
            | none =>
                cases hwrite : m.writeAll with
                | some failure =>
                    rw [hopen, hwrite] at h
                    cases (Prod.mk.inj h).1
                | none =>
                    cases hmode : m.setPermissions with
                    | some e =>
                        rw [hopen, hwrite, hmode] at h
                        cases (Prod.mk.inj h).1
                    | none =>
                        rw [hopen, hwrite, hmode] at h
                        exact (Prod.mk.inj h).2.symm

theorem terminated_of_append {before : KeysFile} {pubkey : String} (hline : 10 ∉ entryLine pubkey) :
    InstallsLine pubkey before (some (before.getD [] ++ entryBytes pubkey)) ↔
      Terminated 10 (before.getD []) := by
  rw [entryBytes_eq_entryLine]
  by_cases hterminated : Terminated 10 (before.getD [])
  · have hafter : keyLines (some (before.getD [] ++ (entryLine pubkey ++ [10]))) =
        keyLines before ++ [entryLine pubkey] := by
      rw [keyLines, Option.getD_some, lines_append_of_terminated hterminated, lines_line hline]
      rfl
    refine iff_of_true ⟨.inr ⟨_, hafter⟩, ?_⟩ hterminated
    rw [hafter]
    exact List.mem_append_right _ List.mem_cons_self
  · -- the entry has become the end of an old line
    obtain ⟨hafter, hbefore⟩ := lines_append_line hterminated hline
    refine iff_of_false (fun h => ?_) hterminated
    have hkept := h.kept
    rw [keyLines, keyLines, Option.getD_some, hafter, hbefore] at hkept
    rcases hkept with hsame | ⟨line, hmore⟩
    · have hlast := (List.append_inj_right' hsame rfl)
      have hnil := List.append_right_eq_self.mp (List.cons.inj hlast).1
      exact entryLine_ne_nil pubkey hnil
    · have hlength := congrArg List.length hmore
      simp at hlength

/-- Where the key is accepted, success leaves the file as it should be exactly when
the entry is already a line of it — if the key's text occurs at all — or the file
does not end within a line. -/
theorem write_installs_line_iff {m m' : Machine} {pubkey fingerprint : String}
    {before after : KeysFile} (haccepted : validateAndFingerprint m pubkey = .ok fingerprint)
    (hok : writeToAuthorizedKeys m' pubkey before = (.ok (), after)) :
    InstallsLine pubkey before after ↔
      if Mentions m' pubkey before then entryLine pubkey ∈ keyLines before
      else Terminated 10 (before.getD []) := by
  rw [writeToAuthorizedKeys_ok hok]
  split
  · exact ⟨fun h => h.installed, fun h => ⟨.inl rfl, h⟩⟩
  · exact terminated_of_append (newline_notMem_entryLine haccepted)

/-- The parent's key, added by hand and without the restriction. -/
def unrestrictedKeys : KeysFile := some (Utf8.bytes "ssh-rsa K parent@laptop\n")

theorem accepted_demo : validateAndFingerprint (kidMachine 8) "ssh-rsa K" = .ok "SHA256:f" := by
  decide +kernel

/-- The key of another parent. -/
def otherKeys : KeysFile := some (entryBytes "ssh-ed25519 L")

theorem write_installs_line_demo :
    InstallsLine "ssh-rsa K" otherKeys (some (entryBytes "ssh-ed25519 L" ++ entryBytes "ssh-rsa K")) ↔
      if Mentions (kidMachine 8) "ssh-rsa K" otherKeys then
        entryLine "ssh-rsa K" ∈ keyLines otherKeys
      else Terminated 10 (otherKeys.getD []) := by
  refine @write_installs_line_iff (kidMachine 8) (kidMachine 8) _ _ _ _ accepted_demo ?_
  decide +kernel

/-- A key that was there without the restriction stays so, and the pairing
succeeds. -/
theorem success_without_restricted_line :
    ¬ ∀ (m m' : Machine) (pubkey fingerprint : String) (before after : KeysFile),
      validateAndFingerprint m pubkey = .ok fingerprint →
      writeToAuthorizedKeys m' pubkey before = (.ok (), after) →
      InstallsLine pubkey before after := by
  intro h
  have hinstalls := h (kidMachine 8) (kidMachine 8) "ssh-rsa K" "SHA256:f" unrestrictedKeys
    unrestrictedKeys accepted_demo (by decide +kernel)
  exact absurd hinstalls.installed (by decide +kernel)

end OmarchyKids.Pairing
