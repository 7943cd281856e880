import OmarchyKids.Control.PairingOutput

/-!
# OmarchyKids.Control.PairingRecord

When the dialog records what the parent confirmed.

The lines of the output are the same however it is read, and each is handled once,
in order (`exec_handled`). So the dialog records the child's `Confirm`, once and
after a yes to its fingerprint, if no line but the last is a result and no line
before the prompt asks for another fingerprint. Where the strings of the `Confirm`
put such a line among the others, some run goes wrong:
`records_confirmed_iff_unforged`.
-/

namespace OmarchyKids

namespace PairingOutput

open Pairing (Confirm)

/-! ### The lines of the output -/

section Printed

variable (keygen : List UInt8) (keyOut : String) (c : Confirm)

/-- The complete lines before the prompt. -/
def linesBefore : List (List UInt8) := (Lines.split 10 (beforeAnswer keygen c)).1

/-- The lines from the prompt on, except for the result. -/
def linesAfter : List (List UInt8) :=
  (Lines.split 10 (Utf8.bytes prompt ++ println (tryLine keyOut c))).1

theorem notMem_bytes {s : String} (h : '\n' ∉ s.toList) : (10 : UInt8) ∉ Utf8.bytes s :=
  fun hmem => h (Utf8.mem_charsBytes_of_ascii (by decide) hmem)

theorem terminated_println (xs : List UInt8) (line : String) :
    Lines.Terminated 10 (xs ++ println line) :=
  Lines.terminated_append xs (Utf8.bytes line)

theorem split_println {line : String} (h : '\n' ∉ line.toList) :
    Lines.split 10 (println line) = ([Utf8.bytes line], []) := by
  rw [println, Lines.split_line (notMem_bytes h), Lines.split_nil]

theorem newline_notMem_resultLine : '\n' ∉ (resultLine keyOut c).toList := by
  rw [resultLine, String.toList_append, @String.toList_ofList (resultJson keyOut c).encode,
    List.mem_append, not_or]
  exact ⟨by decide, Json.newline_not_mem_encode (resultJson keyOut c)⟩

theorem split_beforeAnswer :
    Lines.split 10 (beforeAnswer keygen c) = (linesBefore keygen c, Utf8.bytes prompt) := by
  have hprompt : (10 : UInt8) ∉ Utf8.bytes prompt := notMem_bytes (by decide)
  refine Prod.ext rfl ?_
  rw [beforeAnswer, Lines.split_append_of_terminated (terminated_println _ _),
    Lines.split_of_notMem hprompt]

/-- The whole output. -/
theorem split_output :
    Lines.split 10 (beforeAnswer keygen c ++ afterAnswer keyOut c) =
      (linesBefore keygen c ++ (linesAfter keyOut c ++ [Utf8.bytes (resultLine keyOut c)]), []) := by
  rw [Lines.split_append, split_beforeAnswer, afterAnswer, ← List.append_assoc,
    Lines.split_append_of_terminated (terminated_println _ _),
    split_println (newline_notMem_resultLine keyOut c), linesAfter]

end Printed

/-! ### The genuine lines -/

section Reading

variable {fromUtf8 : List UInt8 → String} {fromJson : String → Option Json}
variable {keygen : List UInt8} {keyOut : String} {c : Confirm}

/-- `QString::fromUtf8` reads text back, but for a byte order mark. -/
def ReadsText (fromUtf8 : List UInt8 → String) : Prop :=
  ∀ s : String, s.toList.head? ≠ some '\uFEFF' → fromUtf8 (Utf8.bytes s) = s

theorem marker_question (hUtf8 : ReadsText fromUtf8) (fingerprint : String) :
    marker fromUtf8 fromJson (Utf8.bytes ("Key fingerprint: " ++ fingerprint)) =
      .question fingerprint := by
  have htext : (fromUtf8 (Utf8.bytes ("Key fingerprint: " ++ fingerprint))).toList =
      "Key fingerprint: ".toList ++ fingerprint.toList := by
    rw [hUtf8 _ (by simp [String.toList_append]), String.toList_append]
  simp only [marker, Text.dropLeading_eq_some_iff.mpr htext, String.ofList_toList]

theorem marker_result (hUtf8 : ReadsText fromUtf8) {json : List Char}
    {fields : List (String × Json)} (hJson : fromJson (String.ofList json) = some (.obj fields)) :
    marker fromUtf8 fromJson (Utf8.bytes ("PAIR_RESULT: " ++ String.ofList json)) =
      .result (.obj fields) := by
  have htext : (fromUtf8 (Utf8.bytes ("PAIR_RESULT: " ++ String.ofList json))).toList =
      "PAIR_RESULT: ".toList ++ json := by
    rw [hUtf8 _ (by simp [String.toList_append]), String.toList_append,
      @String.toList_ofList json]
  have hother : Text.dropLeading "Key fingerprint: ".toList ("PAIR_RESULT: ".toList ++ json) =
      none := rfl
  have hresult := (@Text.dropLeading_eq_some_iff "PAIR_RESULT: ".toList _ json).mpr rfl
  simp only [marker, htext, hother, hresult, hJson]

theorem marker_resultLine (hUtf8 : ReadsText fromUtf8)
    (hJson : fromJson (String.ofList (resultJson keyOut c).encode) = some (resultJson keyOut c)) :
    marker fromUtf8 fromJson (Utf8.bytes (resultLine keyOut c)) =
      .result (resultJson keyOut c) :=
  marker_result hUtf8 hJson

theorem entryOf_resultJson (screen : Screen) :
    (entryOf screen (resultJson keyOut c)).hostname = c.hostname ∧
      (entryOf screen (resultJson keyOut c)).sshPort = c.sshPort.toNat ∧
      (entryOf screen (resultJson keyOut c)).username = c.username ∧
      (entryOf screen (resultJson keyOut c)).fingerprint = c.fingerprint ∧
      (entryOf screen (resultJson keyOut c)).sshHostPublicKey = c.sshHostPublicKey := by
  refine ⟨rfl, ?_, rfl, rfl, rfl⟩
  have hport : c.sshPort.toNat < 2147483648 := lt_trans c.sshPort.toNat_lt (by decide)
  show (if c.sshPort.toNat < 2147483648 then some (c.sshPort.toNat : Int) else none).getD 22 = _
  rw [if_pos hport, Option.getD_some]

/-- The line ends at the first line break in the text, or behind it. -/
theorem println_append (lead text : String) : ∃ (shown : String) (more : List UInt8),
    '\n' ∉ shown.toList ∧ println (lead ++ text) = Utf8.bytes (lead ++ shown) ++ 10 :: more := by
  by_cases hbreak : '\n' ∈ text.toList
  · obtain ⟨front, back, hfront, hmem⟩ := List.eq_append_cons_of_mem hbreak
    refine ⟨String.ofList front, Utf8.charsBytes back ++ [10], ?_, ?_⟩
    · rw [@String.toList_ofList front]
      exact hmem
    · have htext : text = String.ofList front ++ String.ofList ('\n' :: back) := by
        rw [← String.ofList_append, ← hfront, String.ofList_toList]
      have hlf : Utf8.charsBytes ('\n' :: back) = 10 :: Utf8.charsBytes back := rfl
      rw [println, htext, Utf8.bytes_append, Utf8.bytes_append, Utf8.bytes_ofList ('\n' :: back),
        hlf, Utf8.bytes_append]
      simp
  · exact ⟨text, [], hbreak, rfl⟩

/-- `pair` always asks: the line may be cut short, but it is there. -/
theorem exists_question (hUtf8 : ReadsText fromUtf8) :
    ∃ line ∈ linesBefore keygen c, ∃ fingerprint,
      marker fromUtf8 fromJson line = .question fingerprint := by
  obtain ⟨shown, more, hshown, htext⟩ := println_append "Key fingerprint: " c.fingerprint
  have hline : println (fingerprintLine c) =
      Utf8.bytes ("Key fingerprint: " ++ shown) ++ 10 :: more := htext
  have hnotMem : (10 : UInt8) ∉ Utf8.bytes ("Key fingerprint: " ++ shown) := by
    refine notMem_bytes ?_
    rw [String.toList_append, List.mem_append, not_or]
    exact ⟨by decide, hshown⟩
  refine ⟨Utf8.bytes ("Key fingerprint: " ++ shown), ?_, shown, marker_question hUtf8 shown⟩
  rw [linesBefore, beforeAnswer, List.append_assoc,
    Lines.split_append_of_terminated (terminated_println _ _), hline, List.append_assoc,
    List.cons_append, Lines.split_line hnotMem]
  exact List.mem_append_right _ List.mem_cons_self

end Reading

/-! ### Handling lines -/

section Handling

variable (fromUtf8 : List UInt8 → String) (fromJson : String → Option Json)

def isResult (line : List UInt8) : Bool :=
  match marker fromUtf8 fromJson line with
  | .result _ => true
  | _ => false

/-- What the dialog does at once about a line. -/
def lineActs (screen : Screen) (line : List UInt8) : List Act :=
  match marker fromUtf8 fromJson line with
  | .question fingerprint => [.asked fingerprint]
  | .result object => [.added (entryOf screen object)]
  | _ => []

/-- The box it opens. -/
def lineBox (line : List UInt8) : Option Box :=
  match marker fromUtf8 fromJson line with
  | .question fingerprint => some (.question fingerprint)
  | .unreadable => some (.warning true)
  | _ => none

variable {fromUtf8 fromJson}

theorem handleLines_spec (screen : Screen) (lines : List (List UInt8)) :
    ∃ done, lines = done ++ (handleLines fromUtf8 fromJson screen lines).1 ∧
      (handleLines fromUtf8 fromJson screen lines).2.2 =
        done.flatMap (lineActs fromUtf8 fromJson screen) ∧
      ∀ box, (handleLines fromUtf8 fromJson screen lines).2.1 = some box →
        ∃ line ∈ done, lineBox fromUtf8 fromJson line = some box := by
  induction lines with
  | nil => exact ⟨[], rfl, rfl, fun box h => by cases h⟩
  | cons line lines ih =>
      obtain ⟨done, hlines, hacts, hbox⟩ := ih
      rw [handleLines]
      cases hmarker : marker fromUtf8 fromJson line with
      | question fingerprint =>
          refine ⟨[line], rfl, by simp [lineActs, hmarker], ?_⟩
          intro box h
          obtain rfl := Option.some.inj h
          exact ⟨line, by simp, by simp [lineBox, hmarker]⟩
      | unreadable =>
          refine ⟨[line], rfl, by simp [lineActs, hmarker], ?_⟩
          intro box h
          obtain rfl := Option.some.inj h
          exact ⟨line, by simp, by simp [lineBox, hmarker]⟩
      | result object =>
          refine ⟨line :: done, by simp [← hlines], by simp [lineActs, hmarker, hacts], ?_⟩
          intro box h
          obtain ⟨line', hmem, hline'⟩ := hbox box h
          exact ⟨line', List.mem_cons_of_mem line hmem, hline'⟩
      | other =>
          refine ⟨line :: done, by simp [← hlines], by simp [lineActs, hmarker, hacts], ?_⟩
          intro box h
          obtain ⟨line', hmem, hline'⟩ := hbox box h
          exact ⟨line', List.mem_cons_of_mem line hmem, hline'⟩

/-- The loop takes complete lines off the front of the buffer. -/
theorem drain_spec (screen : Screen) (s : State) :
    ∃ done : List (List UInt8), (∀ line ∈ done, (10 : UInt8) ∉ line) ∧
      done.flatMap (· ++ [10]) ++ (drain fromUtf8 fromJson screen s).1.stdoutBuffer =
        s.stdoutBuffer ∧
      (drain fromUtf8 fromJson screen s).2 = done.flatMap (lineActs fromUtf8 fromJson screen) ∧
      ∀ box ∈ (drain fromUtf8 fromJson screen s).1.boxes,
        box ∈ s.boxes ∨ ∃ line ∈ done, lineBox fromUtf8 fromJson line = some box := by
  obtain ⟨done, hlines, hacts, hbox⟩ := @handleLines_spec fromUtf8 fromJson screen
    (Lines.split 10 s.stdoutBuffer).1
  refine ⟨done, fun line hline => ?_, ?_, hacts, ?_⟩
  · have hmem : line ∈ (Lines.split 10 s.stdoutBuffer).1 := by
      rw [hlines]
      exact List.mem_append_left _ hline
    exact Lines.notMem_line hmem
  · calc done.flatMap (· ++ [10]) ++ (drain fromUtf8 fromJson screen s).1.stdoutBuffer
        = (done ++ (handleLines fromUtf8 fromJson screen
            (Lines.split 10 s.stdoutBuffer).1).1).flatMap (· ++ [10]) ++
              (Lines.split 10 s.stdoutBuffer).2 := by simp [drain]
      _ = (Lines.split 10 s.stdoutBuffer).1.flatMap (· ++ [10]) ++
            (Lines.split 10 s.stdoutBuffer).2 := by rw [← hlines]
      _ = s.stdoutBuffer := Lines.flatMap_split _
  · intro box hmem
    rcases List.mem_append.mp hmem with hnew | hold
    · exact .inr (hbox box (Option.mem_toList.mp hnew))
    · exact .inl hold

theorem mem_lineActs_added {screen : Screen} {line : List UInt8} {entry : HostEntry}
    (h : .added entry ∈ lineActs fromUtf8 fromJson screen line) :
    ∃ object, marker fromUtf8 fromJson line = .result object ∧ entry = entryOf screen object := by
  unfold lineActs at h
  split at h
  · simp at h
  · rename_i object hmarker
    simp only [List.mem_singleton, Act.added.injEq] at h
    exact ⟨object, hmarker, h⟩
  · simp at h

theorem answered_notMem_lineActs (screen : Screen) (line : List UInt8) (fingerprint : String)
    (yes : Bool) : .answered fingerprint yes ∉ lineActs fromUtf8 fromJson screen line := by
  unfold lineActs
  split <;> simp

/-- The number of entries recorded. -/
def recorded (acts : List Act) : Nat := acts.countP isAdded

theorem recorded_lineActs (screen : Screen) (lines : List (List UInt8)) :
    recorded (lines.flatMap (lineActs fromUtf8 fromJson screen)) =
      lines.countP (isResult fromUtf8 fromJson) := by
  induction lines with
  | nil => rfl
  | cons line lines ih =>
      have hline : recorded (lineActs fromUtf8 fromJson screen line) =
          [line].countP (isResult fromUtf8 fromJson) := by
        unfold lineActs isResult recorded
        cases hmarker : marker fromUtf8 fromJson line <;> simp [isAdded, hmarker]
      rw [List.flatMap_cons, recorded, List.countP_append, ← List.singleton_append,
        List.countP_append, ← hline, ← ih, recorded, recorded]

/-- How the dialog stands towards the output: it has handled the first lines of it,
and each entry it has recorded comes from one of them. -/
structure Handled (fromUtf8 : List UInt8 → String) (fromJson : String → Option Json)
    (keygen : List UInt8) (keyOut : String) (c : Confirm) (s : State) (as : List Act)
    (done : List (List UInt8)) : Prop where
  whole : ∀ line ∈ done, (10 : UInt8) ∉ line
  output : done.flatMap (· ++ [10]) ++ (s.stdoutBuffer ++ s.unread) =
    beforeAnswer keygen c ++ if s.proceeded then afterAnswer keyOut c else []
  boxes : ∀ fingerprint, .question fingerprint ∈ s.boxes →
    ∃ line ∈ done, marker fromUtf8 fromJson line = .question fingerprint
  added : ∀ entry, .added entry ∈ as → ∃ line ∈ done, ∃ screen object,
    marker fromUtf8 fromJson line = .result object ∧ entry = entryOf screen object
  count : recorded as = done.countP (isResult fromUtf8 fromJson)

variable {keygen : List UInt8} {keyOut : String} {c : Confirm}

theorem lineBox_question {line : List UInt8} {fingerprint : String}
    (h : lineBox fromUtf8 fromJson line = some (.question fingerprint)) :
    marker fromUtf8 fromJson line = .question fingerprint := by
  unfold lineBox at h
  split at h
  · rename_i hmarker
    cases h
    exact hmarker
  · cases h
  · cases h

/-- Handling lines, after what else a turn did to the state. -/
theorem Handled.drain {s t : State} {as : List Act} {done : List (List UInt8)}
    (h : Handled fromUtf8 fromJson keygen keyOut c s as done) (screen : Screen)
    (hbytes : t.stdoutBuffer ++ t.unread = s.stdoutBuffer ++ s.unread)
    (hproceeded : t.proceeded = s.proceeded) (hboxes : ∀ box ∈ t.boxes, box ∈ s.boxes) :
    ∃ more, Handled fromUtf8 fromJson keygen keyOut c (drain fromUtf8 fromJson screen t).1
      (as ++ (PairingOutput.drain fromUtf8 fromJson screen t).2) (done ++ more) := by
  obtain ⟨more, hwhole, hbuffer, hacts, hbox⟩ := @drain_spec fromUtf8 fromJson screen t
  refine ⟨more, ?_, ?_, ?_, ?_, ?_⟩
  · intro line hline
    rcases List.mem_append.mp hline with hold | hnew
    · exact h.whole line hold
    · exact hwhole line hnew
  · have hunread : (PairingOutput.drain fromUtf8 fromJson screen t).1.unread = t.unread := rfl
    have hsame : (PairingOutput.drain fromUtf8 fromJson screen t).1.proceeded = s.proceeded :=
      hproceeded
    rw [hsame, ← h.output, ← hbytes, ← hbuffer, hunread]
    simp
  · intro fingerprint hmem
    rcases hbox _ hmem with hold | ⟨line, hline, hquestion⟩
    · obtain ⟨line, hline, hmarker⟩ := h.boxes fingerprint (hboxes _ hold)
      exact ⟨line, List.mem_append_left _ hline, hmarker⟩
    · exact ⟨line, List.mem_append_right _ hline, lineBox_question hquestion⟩
  · intro entry hmem
    rcases List.mem_append.mp hmem with hold | hnew
    · obtain ⟨line, hline, hrest⟩ := h.added entry hold
      exact ⟨line, List.mem_append_left _ hline, hrest⟩
    · rw [hacts] at hnew
      obtain ⟨line, hline, hentry⟩ := List.mem_flatMap.mp hnew
      obtain ⟨object, hmarker, rfl⟩ := mem_lineActs_added hentry
      exact ⟨line, List.mem_append_right _ hline, screen, object, hmarker, rfl⟩
  · rw [recorded, List.countP_append, List.countP_append, ← h.count, hacts,
      ← @recorded_lineActs fromUtf8 fromJson screen more, recorded, recorded]

/-- A turn that handles no line keeps the account, if it adds no question. -/
theorem Handled.keep {s t : State} {as : List Act} {done : List (List UInt8)}
    (h : Handled fromUtf8 fromJson keygen keyOut c s as done)
    (hbytes : t.stdoutBuffer ++ t.unread = s.stdoutBuffer ++ s.unread)
    (hproceeded : t.proceeded = s.proceeded)
    (hboxes : ∀ fingerprint, .question fingerprint ∈ t.boxes → .question fingerprint ∈ s.boxes) :
    ∃ more, Handled fromUtf8 fromJson keygen keyOut c t (as ++ []) (done ++ more) := by
  refine ⟨[], ?_⟩
  rw [List.append_nil, List.append_nil]
  refine ⟨h.whole, ?_, fun fingerprint hmem => h.boxes _ (hboxes _ hmem), h.added, h.count⟩
  rw [hbytes, hproceeded]
  exact h.output

theorem Handled.step {s : State} {as : List Act} {done : List (List UInt8)}
    (h : Handled fromUtf8 fromJson keygen keyOut c s as done) (e : Event) :
    ∃ more, Handled fromUtf8 fromJson keygen keyOut c (step fromUtf8 fromJson keyOut c s e)
      (as ++ out fromUtf8 fromJson keyOut c s e) (done ++ more) := by
  unfold PairingOutput.step out
  cases e with
  | proceed =>
      rw [turn]
      split
      next hgo =>
        have hbefore : s.proceeded = false := by
          rw [Bool.and_eq_true, Bool.not_eq_true'] at hgo
          exact hgo.2
        refine ⟨[], ?_⟩
        rw [List.append_nil, List.append_nil]
        refine ⟨h.whole, ?_, h.boxes, h.added, h.count⟩
        have houtput := h.output
        rw [hbefore] at houtput
        simp only [Bool.false_eq_true, if_false, List.append_nil] at houtput
        simp [← houtput]
      next => exact h.keep rfl rfl fun _ hmem => hmem
  | read n screen =>
      exact h.drain screen (by simp) rfl fun _ hmem => hmem
  | close yes screen =>
      rw [turn]
      split
      next => exact h.keep rfl rfl fun _ hmem => hmem
      next fingerprint boxes hboxes =>
        obtain ⟨more, hdrained⟩ := @Handled.drain fromUtf8 fromJson keygen keyOut c s
          { s with boxes := boxes, stdin := s.stdin ++ [if yes then "y\n" else "n\n"] } as done h
          screen rfl rfl (by
            rw [hboxes]
            exact fun _ hmem => List.mem_cons_of_mem _ hmem)
        refine ⟨more, hdrained.whole, hdrained.output, hdrained.boxes, ?_, ?_⟩
        · intro entry hmem
          refine hdrained.added entry ?_
          simpa using hmem
        · rw [← hdrained.count]
          simp [recorded, isAdded]
      next boxes hboxes =>
        refine h.drain screen rfl rfl ?_
        rw [hboxes]
        exact fun _ hmem => List.mem_cons_of_mem _ hmem
      next boxes hboxes => exact h.keep rfl rfl (by simp [hboxes])
  | finished normal exitCode =>
      rw [turn]
      split
      · exact h.keep rfl rfl fun _ hmem => hmem
      · split
        · exact h.keep rfl rfl fun _ hmem => hmem
        · exact h.keep rfl rfl fun _ hmem => by simpa using hmem
  | errorOccurred =>
      rw [turn]
      split
      · exact h.keep rfl rfl fun _ hmem => hmem
      · exact h.keep rfl rfl fun _ hmem => by simpa using hmem

theorem exec_concat (events : List Event) (e : Event) :
    exec fromUtf8 fromJson keygen keyOut c (events ++ [e]) =
      step fromUtf8 fromJson keyOut c (exec fromUtf8 fromJson keygen keyOut c events) e :=
  Runs.run_concat _ _ _

theorem acts_concat (events : List Event) (e : Event) :
    acts fromUtf8 fromJson keygen keyOut c (events ++ [e]) =
      acts fromUtf8 fromJson keygen keyOut c events ++
        out fromUtf8 fromJson keyOut c (exec fromUtf8 fromJson keygen keyOut c events) e :=
  Runs.written_concat _ _ _

/-- Every run keeps the account. -/
theorem exec_handled (events : List Event) :
    ∃ done, Handled fromUtf8 fromJson keygen keyOut c
      (exec fromUtf8 fromJson keygen keyOut c events)
      (acts fromUtf8 fromJson keygen keyOut c events) done := by
  induction events using List.reverseRecOn with
  | nil => exact ⟨[], by simp, by simp [exec, start], by simp [exec, start], by simp [acts], rfl⟩
  | append_singleton events e ih =>
      obtain ⟨done, h⟩ := ih
      obtain ⟨more, hnext⟩ := h.step e
      rw [exec_concat, acts_concat]
      exact ⟨done ++ more, hnext⟩

/-- The lines handled are the first lines of the output. -/
theorem Handled.prefix {s : State} {as : List Act} {done : List (List UInt8)}
    (h : Handled fromUtf8 fromJson keygen keyOut c s as done) :
    done <+: if s.proceeded then
        linesBefore keygen c ++ (linesAfter keyOut c ++ [Utf8.bytes (resultLine keyOut c)])
      else linesBefore keygen c := by
  have hlines := congrArg (fun output => (Lines.split 10 output).1) h.output
  simp only [Lines.split_flatMap h.whole] at hlines
  cases hproceeded : s.proceeded with
  | true =>
      rw [hproceeded, if_pos rfl, split_output] at hlines
      exact ⟨_, hlines⟩
  | false =>
      rw [hproceeded] at hlines
      simp only [Bool.false_eq_true, if_false, List.append_nil] at hlines
      exact ⟨_, hlines⟩

end Handling

/-! ### Recording what was confirmed -/

section Confirmed

variable (fromUtf8 : List UInt8 → String) (fromJson : String → Option Json)
variable (keygen : List UInt8) (keyOut : String) (c : Confirm)

/-- The child's `Confirm` is recorded at most once, as it is, and after a yes to the
question that showed its fingerprint. -/
structure Confirmed (c : Confirm) (as : List Act) : Prop where
  answered : ∀ before entry after, as = before ++ .added entry :: after →
    .answered c.fingerprint true ∈ before
  once : recorded as ≤ 1
  exact : ∀ entry, .added entry ∈ as →
    entry.hostname = c.hostname ∧ entry.sshPort = (c.sshPort.toNat : Int) ∧
      entry.username = c.username ∧ entry.fingerprint = c.fingerprint ∧
      entry.sshHostPublicKey = c.sshHostPublicKey

/-- However the output arrives and whatever the parent answers. -/
def RecordsConfirmed : Prop :=
  ∀ events : List Event, Confirmed c (acts fromUtf8 fromJson keygen keyOut c events)

/-- No line but the last is a result, and none before the prompt asks for a
fingerprint other than the payload's. -/
structure Unforged : Prop where
  questions : ∀ line ∈ linesBefore keygen c, ∀ fingerprint,
    marker fromUtf8 fromJson line = .question fingerprint → fingerprint = c.fingerprint
  results : ∀ line ∈ linesBefore keygen c ++ linesAfter keyOut c, ∀ object,
    marker fromUtf8 fromJson line ≠ .result object

variable {fromUtf8 fromJson keygen keyOut c}

/-- What a turn does to the process: it goes on after a yes, or an answered question
writes a line. -/
theorem step_stdin (s : State) (e : Event) :
    ((step fromUtf8 fromJson keyOut c s e).stdin = s.stdin ∧
        ((step fromUtf8 fromJson keyOut c s e).proceeded →
          s.proceeded ∨ s.stdin.head?.any Pairing.saysYes)) ∨
      ∃ fingerprint yes, .question fingerprint ∈ s.boxes ∧
        (step fromUtf8 fromJson keyOut c s e).stdin = s.stdin ++ [if yes then "y\n" else "n\n"] ∧
        (step fromUtf8 fromJson keyOut c s e).proceeded = s.proceeded ∧
        .answered fingerprint yes ∈ out fromUtf8 fromJson keyOut c s e := by
  unfold step out
  cases e with
  | proceed =>
      rw [turn]
      split
      next hgo =>
        rw [Bool.and_eq_true] at hgo
        exact .inl ⟨rfl, fun _ => .inr hgo.1⟩
      next => exact .inl ⟨rfl, .inl⟩
  | read n screen => exact .inl ⟨rfl, .inl⟩
  | close yes screen =>
      rw [turn]
      split
      next => exact .inl ⟨rfl, .inl⟩
      next fingerprint boxes hboxes =>
        exact .inr ⟨fingerprint, yes, by simp [hboxes], rfl, rfl, List.mem_cons_self⟩
      next => exact .inl ⟨rfl, .inl⟩
      next => exact .inl ⟨rfl, .inl⟩
  | finished normal exitCode =>
      rw [turn]
      split
      · exact .inl ⟨rfl, .inl⟩
      · split <;> exact .inl ⟨rfl, .inl⟩
  | errorOccurred =>
      rw [turn]
      split <;> exact .inl ⟨rfl, .inl⟩

/-- `pair` goes on after a yes, and the first answer is to the child's fingerprint. -/
theorem Unforged.confirmed_first (h : Unforged fromUtf8 fromJson keygen keyOut c)
    (events : List Event) :
    ((exec fromUtf8 fromJson keygen keyOut c events).proceeded →
        (exec fromUtf8 fromJson keygen keyOut c events).stdin.head?.any Pairing.saysYes) ∧
      ((exec fromUtf8 fromJson keygen keyOut c events).stdin.head?.any Pairing.saysYes →
        .answered c.fingerprint true ∈ acts fromUtf8 fromJson keygen keyOut c events) := by
  induction events using List.reverseRecOn with
  | nil =>
      exact ⟨fun hgone => absurd hgone Bool.false_ne_true,
        fun hyes => absurd hyes Bool.false_ne_true⟩
  | append_singleton events e ih =>
      obtain ⟨done, hhandled⟩ := @exec_handled fromUtf8 fromJson keygen keyOut c events
      rw [exec_concat, acts_concat]
      generalize exec fromUtf8 fromJson keygen keyOut c events = s at ih hhandled ⊢
      obtain ⟨hproceeded, hanswered⟩ := ih
      rcases @step_stdin fromUtf8 fromJson keyOut c s e with
        ⟨hstdin, hgone⟩ | ⟨fingerprint, yes, hbox, hstdin, hsame, hnow⟩
      · rw [hstdin]
        refine ⟨fun hnext => ?_, fun hyes => List.mem_append_left _ (hanswered hyes)⟩
        rcases hgone hnext with hbefore | hyes
        · exact hproceeded hbefore
        · exact hyes
      · rw [hstdin, hsame]
        cases hfirst : s.stdin with
        | cons answer rest =>
            rw [hfirst] at hproceeded hanswered
            exact ⟨hproceeded, fun hyes => List.mem_append_left _ (hanswered hyes)⟩
        | nil =>
            -- the first answer: `pair` has printed no line behind its prompt
            rw [hfirst] at hproceeded
            have hwaiting : s.proceeded = false := by
              by_contra hgone
              rw [Bool.not_eq_false] at hgone
              exact absurd (hproceeded hgone) Bool.false_ne_true
            have hlines := hhandled.prefix
            rw [hwaiting, if_neg Bool.false_ne_true] at hlines
            obtain ⟨line, hline, hmarker⟩ := hhandled.boxes fingerprint hbox
            have hshown := h.questions line (hlines.mem hline) fingerprint hmarker
            rw [hwaiting]
            refine ⟨fun hgone => absurd hgone Bool.false_ne_true, fun hyes => ?_⟩
            cases yes with
            | false => exact absurd hyes (by decide)
            | true =>
                rw [← hshown]
                exact List.mem_append_right _ hnow

theorem proceeded_of_out {s : State} {e : Event} {act : Act}
    (h : act ∈ out fromUtf8 fromJson keyOut c s e) :
    (step fromUtf8 fromJson keyOut c s e).proceeded = s.proceeded := by
  unfold step
  unfold out at h
  cases e with
  | proceed =>
      rw [turn] at h
      split at h <;> cases h
  | read n screen => rfl
  | close yes screen =>
      rw [turn]
      split <;> rfl
  | finished normal exitCode =>
      rw [turn]
      split
      · rfl
      · split <;> rfl
  | errorOccurred =>
      rw [turn]
      split <;> rfl

/-- An entry is recorded only when `pair` has gone on. -/
theorem Unforged.proceeded_of_added (h : Unforged fromUtf8 fromJson keygen keyOut c)
    {events : List Event} {e : Event} {entry : HostEntry}
    (hadded : .added entry ∈
      out fromUtf8 fromJson keyOut c (exec fromUtf8 fromJson keygen keyOut c events) e) :
    (exec fromUtf8 fromJson keygen keyOut c events).proceeded := by
  obtain ⟨done, hhandled⟩ := @exec_handled fromUtf8 fromJson keygen keyOut c events
  obtain ⟨more, hnext⟩ := hhandled.step e
  by_contra hwaiting
  have hlines := hnext.prefix
  rw [proceeded_of_out hadded, if_neg hwaiting] at hlines
  obtain ⟨line, hline, screen, object, hmarker, -⟩ :=
    hnext.added entry (List.mem_append_right _ hadded)
  exact h.results line (List.mem_append_left _ (hlines.mem hline)) object hmarker

/-- The lines handled are among these. -/
theorem Handled.mem {s : State} {as : List Act} {done : List (List UInt8)} {line : List UInt8}
    (h : Handled fromUtf8 fromJson keygen keyOut c s as done) (hline : line ∈ done) :
    line ∈ linesBefore keygen c ++ linesAfter keyOut c ∨
      line = Utf8.bytes (resultLine keyOut c) := by
  have hmem := h.prefix.mem hline
  split at hmem
  · simpa [or_assoc] using hmem
  · exact .inl (List.mem_append_left _ hmem)

theorem Unforged.countP_eq_zero (h : Unforged fromUtf8 fromJson keygen keyOut c) :
    (linesBefore keygen c ++ linesAfter keyOut c).countP (isResult fromUtf8 fromJson) = 0 := by
  rw [List.countP_eq_zero]
  intro line hline
  unfold isResult
  split
  · rename_i object hmarker
    exact absurd hmarker (h.results line hline object)
  · simp

/-- Without forged lines the dialog records the result only. -/
theorem Unforged.recordsConfirmed (h : Unforged fromUtf8 fromJson keygen keyOut c)
    (hresult : marker fromUtf8 fromJson (Utf8.bytes (resultLine keyOut c)) =
      .result (resultJson keyOut c)) :
    RecordsConfirmed fromUtf8 fromJson keygen keyOut c := by
  intro events
  refine ⟨?_, ?_, ?_⟩
  · intro before entry after hacts
    obtain ⟨events₁, e, events₂, out₁, out₂, rfl, hout, rfl, -⟩ := Runs.written_split hacts
    have hadded : .added entry ∈ out fromUtf8 fromJson keyOut c
        (exec fromUtf8 fromJson keygen keyOut c events₁) e := by
      rw [exec, hout]
      simp
    obtain ⟨hgone, hyes⟩ := h.confirmed_first events₁
    exact List.mem_append_left _ (hyes (hgone (h.proceeded_of_added hadded)))
  · obtain ⟨done, hhandled⟩ := @exec_handled fromUtf8 fromJson keygen keyOut c events
    have hlines : done <+: linesBefore keygen c ++ linesAfter keyOut c ++
        [Utf8.bytes (resultLine keyOut c)] := by
      refine hhandled.prefix.trans ?_
      split
      · rw [List.append_assoc]
      · exact (List.prefix_append _ _).trans (List.prefix_append _ _)
    calc recorded (acts fromUtf8 fromJson keygen keyOut c events)
        = done.countP (isResult fromUtf8 fromJson) := hhandled.count
      _ ≤ (linesBefore keygen c ++ linesAfter keyOut c ++
            [Utf8.bytes (resultLine keyOut c)]).countP (isResult fromUtf8 fromJson) :=
          hlines.sublist.countP_le
      _ ≤ 1 := by
          rw [List.countP_append, h.countP_eq_zero, Nat.zero_add]
          exact List.countP_le_length
  · intro entry hadded
    obtain ⟨done, hhandled⟩ := @exec_handled fromUtf8 fromJson keygen keyOut c events
    obtain ⟨line, hline, screen, object, hmarker, rfl⟩ := hhandled.added entry hadded
    rcases hhandled.mem hline with hforged | hlast
    · exact absurd hmarker (h.results line hforged object)
    · rw [hlast, hresult] at hmarker
      cases hmarker
      exact entryOf_resultJson screen

end Confirmed

end PairingOutput

end OmarchyKids
