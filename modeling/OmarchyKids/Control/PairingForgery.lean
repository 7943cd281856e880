import OmarchyKids.Control.PairingRecord

/-!
# OmarchyKids.Control.PairingForgery

What a forged line leads to: the runs in which the output is read line by line and
the parent answers at most one question.

With those of `OmarchyKids.Control.PairingRecord` they give the exact condition
under which the dialog records what the parent confirmed.
-/

namespace OmarchyKids

namespace PairingOutput

open Pairing (Confirm)

section Forgery

variable {fromUtf8 : List UInt8 → String} {fromJson : String → Option Json}
variable {keygen : List UInt8} {keyOut : String} {c : Confirm}

/-! ### Reading line by line -/

/-- The output arrives one line at a time. -/
def readAll (screen : Screen) (lines : List (List UInt8)) : List Event :=
  lines.map fun line => .read (line.length + 1) screen

theorem turn_read_line {s : State} {line rest : List UInt8} (hbuffer : s.stdoutBuffer = [])
    (hunread : s.unread = line ++ [10] ++ rest) (hline : (10 : UInt8) ∉ line) (screen : Screen) :
    turn fromUtf8 fromJson keyOut c s (.read (line.length + 1) screen) =
      ({ s with
          unread := rest
          boxes := (lineBox fromUtf8 fromJson line).toList ++ s.boxes
          resultReceived := s.resultReceived ||
            (lineActs fromUtf8 fromJson screen line).any isAdded },
        lineActs fromUtf8 fromJson screen line) := by
  have hlength : line.length + 1 = (line ++ [10]).length := by simp
  have hsplit : Lines.split 10 (line ++ [(10 : UInt8)]) = ([line], []) := Lines.split_line hline []
  rw [turn, hbuffer, hunread, hlength, List.take_left, List.drop_left, List.nil_append, drain]
  simp only [hsplit]
  unfold lineBox lineActs
  cases hmarker : marker fromUtf8 fromJson line <;> simp [handleLines, hmarker]

/-- Where such reading leaves the dialog: boxes pile up, and `pair` waits. -/
structure ReadOff (fromUtf8 : List UInt8 → String) (fromJson : String → Option Json)
    (lines : List (List UInt8)) (rest : List UInt8) (s t : State) : Prop where
  buffer : t.stdoutBuffer = []
  unread : t.unread = rest
  stdin : t.stdin = s.stdin
  proceeded : t.proceeded = s.proceeded
  boxes : t.boxes = (lines.filterMap (lineBox fromUtf8 fromJson)).reverse ++ s.boxes

theorem run_readAll (screen : Screen) {s : State} {lines : List (List UInt8)}
    {rest : List UInt8} (hbuffer : s.stdoutBuffer = [])
    (hunread : s.unread = lines.flatMap (· ++ [10]) ++ rest)
    (hlines : ∀ line ∈ lines, (10 : UInt8) ∉ line) :
    ReadOff fromUtf8 fromJson lines rest s
        (Runs.run (step fromUtf8 fromJson keyOut c) s (readAll screen lines)) ∧
      Runs.written (step fromUtf8 fromJson keyOut c) (out fromUtf8 fromJson keyOut c) s
        (readAll screen lines) = lines.flatMap (lineActs fromUtf8 fromJson screen) := by
  induction lines generalizing s with
  | nil => exact ⟨⟨hbuffer, hunread, rfl, rfl, rfl⟩, rfl⟩
  | cons line lines ih =>
      rw [List.flatMap_cons, List.append_assoc] at hunread
      rw [List.forall_mem_cons] at hlines
      have hturn := @turn_read_line fromUtf8 fromJson keyOut c s line _ hbuffer hunread hlines.1
        screen
      obtain ⟨hread, hwritten⟩ :=
        @ih (step fromUtf8 fromJson keyOut c s (.read (line.length + 1) screen))
          (by rw [step, hturn, hbuffer]) (by rw [step, hturn]) hlines.2
      refine ⟨⟨hread.buffer, hread.unread, hread.stdin.trans ?_, hread.proceeded.trans ?_,
        hread.boxes.trans ?_⟩, ?_⟩
      · rw [step, hturn]
      · rw [step, hturn]
      · rw [step, hturn]
        cases hbox : lineBox fromUtf8 fromJson line <;> simp [hbox]
      · show out fromUtf8 fromJson keyOut c s (.read (line.length + 1) screen) ++
          Runs.written _ _ _ (readAll screen lines) = _
        rw [hwritten, out, hturn, List.flatMap_cons]

/-- Closing a question when no line is left to handle. -/
theorem turn_close_question {s : State} {fingerprint : String} {boxes : List Box}
    (hbuffer : s.stdoutBuffer = []) (hboxes : s.boxes = .question fingerprint :: boxes)
    (screen : Screen) :
    turn fromUtf8 fromJson keyOut c s (.close true screen) =
      ({ s with boxes := boxes, stdin := s.stdin ++ ["y\n"] }, [.answered fingerprint true]) := by
  rw [turn, hboxes]
  simp [drain, hbuffer, handleLines]

theorem turn_proceed {s : State} (hstdin : s.stdin = ["y\n"]) (hproceeded : s.proceeded = false) :
    turn fromUtf8 fromJson keyOut c s .proceed =
      ({ s with unread := s.unread ++ afterAnswer keyOut c, proceeded := true }, []) := by
  have hyes : s.stdin.head?.any Pairing.saysYes && !s.proceeded := by
    rw [hstdin, hproceeded]
    decide
  rw [turn, if_pos hyes]

/-! ### Two ways to read the output -/

theorem flatMap_linesBefore :
    (linesBefore keygen c).flatMap (· ++ [10]) ++ Utf8.bytes prompt = beforeAnswer keygen c := by
  have hsplit := @Lines.flatMap_split _ _ 10 (beforeAnswer keygen c)
  rw [split_beforeAnswer] at hsplit
  exact hsplit

theorem flatMap_lines :
    (linesBefore keygen c ++
      (linesAfter keyOut c ++ [Utf8.bytes (resultLine keyOut c)])).flatMap (· ++ [10]) =
      beforeAnswer keygen c ++ afterAnswer keyOut c := by
  have hsplit := @Lines.flatMap_split _ _ 10 (beforeAnswer keygen c ++ afterAnswer keyOut c)
  rw [split_output, List.append_nil] at hsplit
  exact hsplit

theorem notMem_outputLine {line : List UInt8} (h : line ∈ linesBefore keygen c ++
    (linesAfter keyOut c ++ [Utf8.bytes (resultLine keyOut c)])) : (10 : UInt8) ∉ line := by
  have hmem : line ∈ (Lines.split 10 (beforeAnswer keygen c ++ afterAnswer keyOut c)).1 := by
    rw [split_output]
    exact h
  exact Lines.notMem_line hmem

/-- Everything up to the prompt is read, and nothing answered. -/
theorem acts_readAll (screen : Screen) :
    acts fromUtf8 fromJson keygen keyOut c (readAll screen (linesBefore keygen c)) =
      (linesBefore keygen c).flatMap (lineActs fromUtf8 fromJson screen) :=
  (@run_readAll fromUtf8 fromJson keyOut c screen (start keygen c) _ _ rfl
    flatMap_linesBefore.symm fun _ hline => Lines.notMem_line hline).2

/-- One question is answered with yes, as soon as it is asked. -/
def confirmAt (screen : Screen) (shown more : List (List UInt8)) : List Event :=
  readAll screen shown ++ .close true screen :: .proceed :: readAll screen more

theorem acts_confirmAt (screen : Screen) {shown more : List (List UInt8)} {line : List UInt8}
    {fingerprint : String} (hlines : linesBefore keygen c = shown ++ [line] ++ more)
    (hmarker : marker fromUtf8 fromJson line = .question fingerprint) :
    acts fromUtf8 fromJson keygen keyOut c (confirmAt screen (shown ++ [line])
        (more ++ (linesAfter keyOut c ++ [Utf8.bytes (resultLine keyOut c)]))) =
      (shown ++ [line]).flatMap (lineActs fromUtf8 fromJson screen) ++
        .answered fingerprint true :: (more ++ (linesAfter keyOut c ++
          [Utf8.bytes (resultLine keyOut c)])).flatMap (lineActs fromUtf8 fromJson screen) := by
  generalize hlast : linesAfter keyOut c ++ [Utf8.bytes (resultLine keyOut c)] = last
  have hwhole : ∀ l ∈ shown ++ [line] ++ (more ++ last), (10 : UInt8) ∉ l := by
    intro l hl
    refine @notMem_outputLine keygen keyOut c l ?_
    rw [hlines, hlast, List.append_assoc (shown ++ [line])]
    exact hl
  have hshown : (start keygen c).unread = (shown ++ [line]).flatMap (· ++ [10]) ++
      (more.flatMap (· ++ [10]) ++ Utf8.bytes prompt) := by
    rw [start, ← flatMap_linesBefore, hlines, List.flatMap_append, List.append_assoc]
  obtain ⟨hread, hwritten⟩ := @run_readAll fromUtf8 fromJson keyOut c screen (start keygen c) _ _
    rfl hshown fun l hl => hwhole l (List.mem_append_left _ hl)
  generalize hs : Runs.run (step fromUtf8 fromJson keyOut c) (start keygen c)
    (readAll screen (shown ++ [line])) = s at hread
  -- the question is the innermost box
  have hboxes : s.boxes = .question fingerprint ::
      (shown.filterMap (lineBox fromUtf8 fromJson)).reverse := by
    have hbox : lineBox fromUtf8 fromJson line = some (.question fingerprint) := by
      simp [lineBox, hmarker]
    rw [hread.boxes]
    simp [hbox, start]
  have hclose := @turn_close_question fromUtf8 fromJson keyOut c s fingerprint _ hread.buffer hboxes
    screen
  have hproceed := @turn_proceed fromUtf8 fromJson keyOut c
    (step fromUtf8 fromJson keyOut c s (.close true screen))
    (by rw [step, hclose, hread.stdin]; rfl) (by rw [step, hclose, hread.proceeded]; rfl)
  -- and the rest of the output is there
  have hrest : (step fromUtf8 fromJson keyOut c (step fromUtf8 fromJson keyOut c s
      (.close true screen)) .proceed).unread = (more ++ last).flatMap (· ++ [10]) ++ [] := by
    have hall := @flatMap_lines keygen keyOut c
    rw [hlines, hlast, ← flatMap_linesBefore, hlines] at hall
    simp only [List.flatMap_append, List.append_assoc, List.append_cancel_left_eq] at hall
    rw [step, hproceed, step, hclose, hread.unread]
    simp [hall]
  obtain ⟨-, hafter⟩ := @run_readAll fromUtf8 fromJson keyOut c screen _ _ _
    (by rw [step, hproceed, step, hclose]; exact hread.buffer) hrest
    fun l hl => hwhole l (List.mem_append_right _ hl)
  rw [acts, confirmAt, Runs.written_append, hs, hwritten, Runs.written_cons, Runs.written_cons,
    hafter, out, hclose, out, hproceed]
  rfl

/-! ### Forged lines -/

theorem answered_of_flatMap {screen : Screen} {lines : List (List UInt8)} {fingerprint : String}
    {yes : Bool} :
    .answered fingerprint yes ∉ lines.flatMap (lineActs fromUtf8 fromJson screen) := by
  intro hmem
  obtain ⟨line, -, hline⟩ := List.mem_flatMap.mp hmem
  exact answered_notMem_lineActs screen line fingerprint yes hline

/-- A result before the prompt is recorded without any answer. -/
theorem not_confirmed_of_early_result {line : List UInt8} {object : Json}
    (hline : line ∈ linesBefore keygen c)
    (hmarker : marker fromUtf8 fromJson line = .result object) :
    ¬ RecordsConfirmed fromUtf8 fromJson keygen keyOut c := by
  intro hconfirmed
  let screen : Screen := ⟨"", ""⟩
  have hacts := @acts_readAll fromUtf8 fromJson keygen keyOut c screen
  have hadded : .added (entryOf screen object) ∈
      acts fromUtf8 fromJson keygen keyOut c (readAll screen (linesBefore keygen c)) := by
    rw [hacts]
    exact List.mem_flatMap.mpr ⟨line, hline, by simp [lineActs, hmarker]⟩
  obtain ⟨before, after, hsplit⟩ := List.append_of_mem hadded
  have hanswered := (hconfirmed _).answered before _ after hsplit
  have hmem : .answered c.fingerprint true ∈
      acts fromUtf8 fromJson keygen keyOut c (readAll screen (linesBefore keygen c)) := by
    rw [hsplit]
    exact List.mem_append_left _ hanswered
  rw [hacts] at hmem
  exact answered_of_flatMap hmem

/-- A yes to another fingerprint lets `pair` go on to its result. -/
theorem not_confirmed_of_other_question
    (hresult : marker fromUtf8 fromJson (Utf8.bytes (resultLine keyOut c)) =
      .result (resultJson keyOut c)) {line : List UInt8} {fingerprint : String}
    (hline : line ∈ linesBefore keygen c)
    (hmarker : marker fromUtf8 fromJson line = .question fingerprint)
    (hother : fingerprint ≠ c.fingerprint) :
    ¬ RecordsConfirmed fromUtf8 fromJson keygen keyOut c := by
  intro hconfirmed
  let screen : Screen := ⟨"", ""⟩
  obtain ⟨shown, more, hlines⟩ := List.append_of_mem hline
  rw [← List.singleton_append, ← List.append_assoc] at hlines
  have hacts := @acts_confirmAt fromUtf8 fromJson keygen keyOut c screen _ _ _ _ hlines hmarker
  have hlast : (Utf8.bytes (resultLine keyOut c) :: []).flatMap
      (lineActs fromUtf8 fromJson screen) = [.added (entryOf screen (resultJson keyOut c))] := by
    simp [lineActs, hresult]
  rw [← List.append_assoc more, @List.flatMap_append _ _ (more ++ linesAfter keyOut c), hlast,
    ← List.cons_append, ← List.append_assoc] at hacts
  have hanswered := (hconfirmed _).answered _ _ _ hacts
  rw [List.mem_append, List.mem_cons] at hanswered
  rcases hanswered with hearly | hnow | hlate
  · exact answered_of_flatMap hearly
  · cases hnow
    exact hother rfl
  · exact answered_of_flatMap hlate

/-- A second result is a second entry. -/
theorem not_confirmed_of_late_result (hUtf8 : ReadsText fromUtf8)
    (hresult : marker fromUtf8 fromJson (Utf8.bytes (resultLine keyOut c)) =
      .result (resultJson keyOut c)) {line : List UInt8} {object : Json}
    (hline : line ∈ linesAfter keyOut c)
    (hmarker : marker fromUtf8 fromJson line = .result object) :
    ¬ RecordsConfirmed fromUtf8 fromJson keygen keyOut c := by
  intro hconfirmed
  let screen : Screen := ⟨"", ""⟩
  obtain ⟨question, hquestion, fingerprint, hasked⟩ :=
    @exists_question fromUtf8 fromJson keygen c hUtf8
  obtain ⟨shown, more, hlines⟩ := List.append_of_mem hquestion
  rw [← List.singleton_append, ← List.append_assoc] at hlines
  have hacts := @acts_confirmAt fromUtf8 fromJson keygen keyOut c screen _ _ _ _ hlines hasked
  have honce := (hconfirmed (confirmAt screen (shown ++ [question])
    (more ++ (linesAfter keyOut c ++ [Utf8.bytes (resultLine keyOut c)])))).once
  have hforged : 0 < (linesAfter keyOut c).countP (isResult fromUtf8 fromJson) :=
    List.countP_pos_iff.mpr ⟨line, hline, by simp [isResult, hmarker]⟩
  have hgenuine : [Utf8.bytes (resultLine keyOut c)].countP (isResult fromUtf8 fromJson) = 1 := by
    simp [isResult, hresult]
  have hlate := @recorded_lineActs fromUtf8 fromJson screen
    (more ++ (linesAfter keyOut c ++ [Utf8.bytes (resultLine keyOut c)]))
  rw [List.countP_append, List.countP_append, hgenuine] at hlate
  rw [hacts, recorded, List.countP_append, List.countP_cons] at honce
  unfold recorded at hlate
  omega

/-- The dialog records what the parent confirmed, in every run, exactly if no line
that `pair` prints is forged. -/
theorem records_confirmed_iff_unforged (hUtf8 : ReadsText fromUtf8)
    (hJson : fromJson (String.ofList (resultJson keyOut c).encode) = some (resultJson keyOut c)) :
    RecordsConfirmed fromUtf8 fromJson keygen keyOut c ↔
      Unforged fromUtf8 fromJson keygen keyOut c := by
  have hresult := marker_resultLine hUtf8 hJson
  refine ⟨fun hconfirmed => ⟨?_, ?_⟩, fun hunforged => hunforged.recordsConfirmed hresult⟩
  · intro line hline fingerprint hmarker
    by_contra hother
    exact not_confirmed_of_other_question hresult hline hmarker hother hconfirmed
  · intro line hline object hmarker
    rcases List.mem_append.mp hline with hbefore | hafter
    · exact not_confirmed_of_early_result hbefore hmarker hconfirmed
    · exact not_confirmed_of_late_result hUtf8 hresult hafter hmarker hconfirmed

/-! ### Payloads without line breaks -/

theorem marker_other (hUtf8 : ReadsText fromUtf8) {line : String}
    (hbom : line.toList.head? ≠ some '\uFEFF')
    (hquestion : Text.dropLeading "Key fingerprint: ".toList line.toList = none)
    (hresult : Text.dropLeading "PAIR_RESULT: ".toList line.toList = none) :
    marker fromUtf8 fromJson (Utf8.bytes line) = .other := by
  simp only [marker, hUtf8 line hbom, hquestion, hresult]

theorem marker_greeting (hUtf8 : ReadsText fromUtf8) :
    marker fromUtf8 fromJson (Utf8.bytes (greeting c)) = .other := by
  obtain ⟨rest, htext⟩ : ∃ rest, (greeting c).toList = "Paired with ".toList ++ rest :=
    ⟨c.hostname.toList ++ (" (SSH port ".toList ++ ((toString c.sshPort.toNat).toList ++
      ").".toList)), by simp only [greeting, String.toList_append, List.append_assoc]⟩
  refine marker_other hUtf8 (by simp [htext]) ?_ ?_
  · rw [htext]
    rfl
  · rw [htext]
    rfl

theorem marker_prompt (hUtf8 : ReadsText fromUtf8) (line : String) :
    marker fromUtf8 fromJson (Utf8.bytes (prompt ++ line)) = .other := by
  have htext : (prompt ++ line).toList = prompt.toList ++ line.toList := String.toList_append
  refine marker_other hUtf8 (by simp [prompt]) ?_ ?_
  · rw [htext]
    rfl
  · rw [htext]
    rfl

theorem newline_notMem_toString (n : Nat) : '\n' ∉ (toString n).toList := by
  intro h
  have hdigit := Nat.isDigit_of_mem_toDigits (by decide) (by decide)
    (show '\n' ∈ Nat.toDigits 10 n by simpa [Nat.repr] using h)
  exact absurd hdigit (by decide)

theorem newline_notMem_append {s t : String} (hs : '\n' ∉ s.toList) (ht : '\n' ∉ t.toList) :
    '\n' ∉ (s ++ t).toList := by
  rw [String.toList_append, List.mem_append, not_or]
  exact ⟨hs, ht⟩

theorem newline_notMem_greeting (h : '\n' ∉ c.hostname.toList) : '\n' ∉ (greeting c).toList := by
  have hport := newline_notMem_toString c.sshPort.toNat
  unfold greeting
  exact newline_notMem_append (newline_notMem_append (newline_notMem_append
    (newline_notMem_append (by decide) h) (by decide)) hport) (by decide)

theorem newline_notMem_tryLine (hkeyOut : '\n' ∉ keyOut.toList)
    (hhostname : '\n' ∉ c.hostname.toList) (husername : '\n' ∉ c.username.toList) :
    '\n' ∉ (tryLine keyOut c).toList := by
  have hport := newline_notMem_toString c.sshPort.toNat
  have hpath : '\n' ∉ (knownHostsPath keyOut).toList := newline_notMem_append hkeyOut (by decide)
  unfold tryLine
  exact newline_notMem_append (newline_notMem_append (newline_notMem_append
    (newline_notMem_append (newline_notMem_append (newline_notMem_append (newline_notMem_append
      (newline_notMem_append (newline_notMem_append (by decide) hpath) (by decide)) hkeyOut)
      (by decide)) hport) (by decide)) husername) (by decide)) hhostname

/-- Nothing is forged without a line break in one of the printed strings, if
`ssh-keygen` prints whole lines that are not marked. -/
theorem unforged_of_no_line_break (hUtf8 : ReadsText fromUtf8)
    (hkeygen : Lines.Terminated 10 keygen) (hplain : ∀ line ∈ (Lines.split 10 keygen).1,
      marker fromUtf8 fromJson line = .other)
    (hkeyOut : '\n' ∉ keyOut.toList) (hhostname : '\n' ∉ c.hostname.toList)
    (husername : '\n' ∉ c.username.toList) (hfingerprint : '\n' ∉ c.fingerprint.toList) :
    Unforged fromUtf8 fromJson keygen keyOut c := by
  have hgreeting := newline_notMem_greeting hhostname
  have hshown : '\n' ∉ (fingerprintLine c).toList :=
    newline_notMem_append (by decide) hfingerprint
  have hbefore : linesBefore keygen c = (Lines.split 10 keygen).1 ++
      [Utf8.bytes (greeting c), Utf8.bytes (fingerprintLine c)] := by
    have hprompt : (10 : UInt8) ∉ Utf8.bytes prompt := notMem_bytes (by decide)
    rw [linesBefore, beforeAnswer, List.append_assoc, List.append_assoc,
      Lines.split_append_of_terminated hkeygen, println, println, List.append_assoc,
      List.append_assoc, List.singleton_append, List.singleton_append,
      Lines.split_line (notMem_bytes hgreeting), Lines.split_line (notMem_bytes hshown),
      Lines.split_of_notMem hprompt]
  have hafter : linesAfter keyOut c = [Utf8.bytes (prompt ++ tryLine keyOut c)] := by
    have hline : '\n' ∉ (prompt ++ tryLine keyOut c).toList :=
      newline_notMem_append (by decide) (newline_notMem_tryLine hkeyOut hhostname husername)
    rw [linesAfter, println, ← List.append_assoc, ← Utf8.bytes_append, ← println,
      split_println hline]
  -- one line asks, for the right fingerprint, and the others do nothing
  have hmarkers : ∀ line ∈ linesBefore keygen c ++ linesAfter keyOut c,
      marker fromUtf8 fromJson line = .other ∨
        marker fromUtf8 fromJson line = .question c.fingerprint := by
    intro line hline
    rw [hbefore, hafter, List.mem_append, List.mem_append, List.mem_pair, List.mem_singleton]
      at hline
    rcases hline with (hkey | hline | hline) | hline
    · exact .inl (hplain line hkey)
    · rw [hline]
      exact .inl (marker_greeting hUtf8)
    · rw [hline]
      exact .inr (marker_question hUtf8 c.fingerprint)
    · rw [hline]
      exact .inl (marker_prompt hUtf8 (tryLine keyOut c))
  constructor
  · intro line hline fingerprint hmarker
    rcases hmarkers line (List.mem_append_left _ hline) with hother | hquestion
    · rw [hother] at hmarker
      cases hmarker
    · rw [hquestion] at hmarker
      exact (Marker.question.inj hmarker).symm
  · intro line hline object hmarker
    rcases hmarkers line hline with hother | hquestion
    · rw [hother] at hmarker
      cases hmarker
    · rw [hquestion] at hmarker
      cases hmarker

end Forgery

/-! ### Two children -/

/-- `QString::fromUtf8` on valid text: a byte order mark in front is dropped. -/
def readUtf8 (bs : List UInt8) : String :=
  match Utf8.decode bs with
  | none => ""
  | some s => if s.toList.head? = some '\uFEFF' then String.ofList s.toList.tail else s

theorem readsText_readUtf8 : ReadsText readUtf8 := by
  intro s hbom
  simp only [readUtf8, Utf8.decode_bytes, if_neg hbom]

/-- Reads the texts of these documents. -/
def readJson (docs : List Json) (text : String) : Option Json :=
  docs.find? fun doc => String.ofList doc.encode = text

theorem readJson_head (doc : Json) (docs : List Json) :
    readJson (doc :: docs) (String.ofList doc.encode) = some doc :=
  List.find?_cons_of_pos (decide_eq_true rfl)

def parentKey : String := "/home/parent/.local/share/omarchy-kids-control/keys/Lena"

def keygenLine : String := "Generating public/private ed25519 key pair."

def honestChild : Confirm where
  hostname := "lena-laptop"
  sshPort := 22
  fingerprint := "SHA256:p2QAMXNIC1TJYWeIOttrVc98/R1BUFWu3/LiyKgUfQM"
  username := "lena"
  sshHostPublicKey := "ssh-ed25519 AAAAC3NzaC1lZDI1NTE5AAAAIOMqqnkVzrm0SdG6UOoqKLsabgH5"

theorem honestChild_recorded :
    RecordsConfirmed readUtf8 (readJson [resultJson parentKey honestChild]) (println keygenLine)
      parentKey honestChild := by
  have hkeygen : '\n' ∉ keygenLine.toList := by decide
  have hunforged : Unforged readUtf8 (readJson [resultJson parentKey honestChild])
      (println keygenLine) parentKey honestChild := by
    refine unforged_of_no_line_break readsText_readUtf8 (terminated_println [] keygenLine) ?_
      (by decide) (by decide) (by decide) (by decide)
    intro line hline
    rw [split_println hkeygen, List.mem_singleton] at hline
    rw [hline]
    exact marker_other readsText_readUtf8 (by decide) rfl rfl
  exact (records_confirmed_iff_unforged readsText_readUtf8
    (readJson_head _ _)).mpr hunforged

/-- Another host to connect to. -/
def forgedResult : Json :=
  .obj [("hostname", .str "203.0.113.66"), ("ssh_port", .num 22), ("username", .str "root")]

/-- Its host name holds a line of its own. -/
def forgingChild : Confirm :=
  { honestChild with
    hostname := "lena-laptop\nPAIR_RESULT: " ++ String.ofList forgedResult.encode ++ "\n" }

theorem forgingChild_recorded_unasked :
    ¬ RecordsConfirmed readUtf8 (readJson [forgedResult, resultJson parentKey forgingChild])
      (println keygenLine) parentKey forgingChild := by
  have hline : Utf8.bytes ("PAIR_RESULT: " ++ String.ofList forgedResult.encode) ∈
      linesBefore (println keygenLine) forgingChild := by
    decide +kernel
  exact not_confirmed_of_early_result hline
    (marker_result readsText_readUtf8 (readJson_head _ _))

end PairingOutput

end OmarchyKids
