import OmarchyKids.Control.BarWidget
import OmarchyKids.Lib.Runs

/-!
# OmarchyKids.Control.Polls

How the headless poll reaches the desktop panel: it asks every host, writes
`status-cache.json.tmp` and renames it over `status-cache.json`, which the widget reads again
whenever it changes.

Nobody looks whether a write has worked: the file is renamed with whatever is in it. A poll
may be killed at any point, and polls that overlap share the temporary file, each with a
position of its own, also when another has renamed it already. What is certain is this: a
poll that was alone while it wrote, and the last whose file got into place, is shown as a
whole if its text was written, and not at all if the text was cut short
(`shows_last_poll`).
-/

namespace OmarchyKids

open JsonText (Value)

/-! ### Files and writers -/

/-- A poll that has its answers. -/
structure Writer where
  /-- The file it has opened, if it could. -/
  file : Option Nat
  /-- How far it has written. -/
  offset : Nat := 0
  /-- What it has still to write. -/
  rest : List UInt8
  deriving DecidableEq

structure Desktop where
  /-- The contents of the files, which are numbered; names are given to two of them. -/
  files : List (List UInt8) := []
  tmp : Option Nat := none
  cache : Option Nat := none
  /-- The polls in the order of their start, without those that have ended. -/
  polls : List (Option Writer) := []
  /-- What the widget holds. -/
  hosts : List Value := []

/-- A file after a write; what lies between its end and the position is filled with zeros. -/
def writeAt (offset : Nat) (octets content : List UInt8) : List UInt8 :=
  if octets = [] then content
  else content.take offset ++ List.replicate (offset - content.length) 0 ++ octets ++
    content.drop (offset + octets.length)

/-- At the end of a file a write appends. -/
theorem writeAt_length (octets content : List UInt8) :
    writeAt content.length octets content = content ++ octets := by
  unfold writeAt
  split
  next hnone => rw [hnone, List.append_nil]
  next => simp

namespace Desktop

inductive Event
  /-- All hosts have been asked; the temporary file is opened and truncated, if it can be. -/
  | start (text : List UInt8) (opens : Bool)
  /-- A poll writes some octets. -/
  | write (i n : Nat)
  /-- A write fails, and the stream takes nothing any more. -/
  | fail (i : Nat)
  /-- The stream is closed, and the file renamed, if there is one by that name. -/
  | rename (i : Nat)
  | kill (i : Nat)
  /-- The widget reads the cache. -/
  | reload
  | loadFailed

/-- The event starts a poll. -/
def Event.starts : Event → Bool
  | start _ _ => true
  | _ => false

/-- The poll that was started as the `i`th, while it runs. -/
def writer (d : Desktop) (i : Nat) : Option Writer := d.polls[i]?.join

def setWriter (d : Desktop) (i : Nat) (w : Option Writer) : Desktop :=
  { d with polls := d.polls.set i w }

/-- `std::ofstream` with `trunc`. -/
def openTmp (d : Desktop) (text : List UInt8) : Desktop :=
  match d.tmp with
  | some f =>
      { d with files := d.files.set f []
               polls := d.polls ++ [some { file := some f, rest := text }] }
  | none =>
      { d with files := d.files ++ [[]]
               tmp := some d.files.length
               polls := d.polls ++ [some { file := some d.files.length, rest := text }] }

section

variable (fromUtf8 : List UInt8 → String)

/-- `fromUtf8` is what `text()` makes of octets. -/
def step (d : Desktop) : Event → Desktop
  | .start text opens =>
      if opens then d.openTmp text
      else { d with polls := d.polls ++ [some { file := none, rest := [] }] }
  | .write i n =>
      match d.writer i with
      | some w =>
          let octets := w.rest.take n
          { d with
            files := w.file.elim d.files fun f => d.files.modify f (writeAt w.offset octets)
            polls := d.polls.set i
              (some { w with offset := w.offset + octets.length, rest := w.rest.drop n }) }
      | none => d
  | .fail i =>
      match d.writer i with
      | some w => d.setWriter i (some { w with rest := [] })
      | none => d
  | .rename i =>
      match d.writer i with
      | some w =>
          if w.rest = [] then
            { d with tmp := none, cache := d.tmp.or d.cache, polls := d.polls.set i none }
          else d
      | none => d
  | .kill i => d.setWriter i none
  | .reload =>
      { d with hosts :=
          match d.cache.bind (d.files[·]?) with
          | some octets => BarWidget.parseCache (fromUtf8 octets)
          | none => [] }
  | .loadFailed => { d with hosts := [] }

def run (d : Desktop) (es : List Event) : Desktop := Runs.run (step fromUtf8) d es

theorem run_concat (d : Desktop) (es : List Event) (e : Event) :
    run fromUtf8 d (es ++ [e]) = step fromUtf8 (run fromUtf8 d es) e :=
  Runs.run_concat _ _ _

theorem run_append (d : Desktop) (es more : List Event) :
    run fromUtf8 d (es ++ more) = run fromUtf8 (run fromUtf8 d es) more :=
  Runs.run_append _ _ _

theorem run_cons (d : Desktop) (e : Event) (es : List Event) :
    run fromUtf8 d (e :: es) = run fromUtf8 (step fromUtf8 d e) es := rfl

/-- The file that an event puts into the cache's place. -/
def places (d : Desktop) : Event → List Nat
  | .rename i =>
      match d.writer i with
      | some w => if w.rest = [] then d.tmp.toList else []
      | none => []
  | _ => []

/-- The files that are put into the cache's place. -/
def placed (d : Desktop) (es : List Event) : List Nat := Runs.written (step fromUtf8) places d es

end

/-! ### The writers -/

theorem writer_set {d : Desktop} {i : Nat} {w : Writer} (h : d.writer i = some w)
    (w' : Option Writer) (j : Nat) :
    (d.polls.set i w')[j]?.join = if j = i then w' else d.writer j := by
  have hi : i < d.polls.length := by
    by_contra hlong
    rw [writer, List.getElem?_eq_none (not_lt.mp hlong)] at h
    cases h
  by_cases hj : j = i
  · rw [if_pos hj, hj, List.getElem?_set_self hi, Option.join_some]
  · rw [if_neg hj, List.getElem?_set_ne (Ne.symm hj), writer]

theorem writer_kill (d : Desktop) (i j : Nat) :
    (d.setWriter i none).writer j = if j = i then none else d.writer j := by
  cases h : d.writer i with
  | some w => exact writer_set h none j
  | none =>
      by_cases hj : j = i
      · rw [if_pos hj, hj, writer, setWriter, List.getElem?_set]
        rw [writer] at h
        split
        · split <;> rfl
        · exact h
      · rw [if_neg hj, writer, setWriter, List.getElem?_set_ne (Ne.symm hj), writer]

/-- A new poll comes behind the others. -/
theorem writer_append {d : Desktop} {j : Nat} {w w' : Writer}
    (h : (d.polls ++ [some w'])[j]?.join = some w) :
    d.writer j = some w ∨ j = d.polls.length ∧ w = w' := by
  rcases Nat.lt_trichotomy j d.polls.length with hj | hj | hj
  · rw [List.getElem?_append_left hj] at h
    exact .inl h
  · rw [hj, List.getElem?_concat_length, Option.join_some] at h
    exact .inr ⟨hj, (Option.some.inj h).symm⟩
  · rw [List.getElem?_eq_none (by simpa using hj)] at h
    cases h

section

variable {fromUtf8 : List UInt8 → String}

theorem step_start (d : Desktop) (text : List UInt8) (opens : Bool) :
    ∃ w, (step fromUtf8 d (.start text opens)).polls = d.polls ++ [some w] ∧
      (w.file = none ∨ w.file = (step fromUtf8 d (.start text opens)).tmp) := by
  cases opens with
  | false => exact ⟨_, rfl, .inl rfl⟩
  | true =>
      rw [step, if_pos rfl, openTmp]
      cases d.tmp with
      | some f => exact ⟨_, rfl, .inr rfl⟩
      | none => exact ⟨_, rfl, .inr rfl⟩

/-- A poll keeps its file; a new one has the temporary file, or none. -/
theorem writer_step {d : Desktop} {e : Event} {j : Nat} {w : Writer}
    (h : (step fromUtf8 d e).writer j = some w) :
    (∃ w₀, d.writer j = some w₀ ∧ w.file = w₀.file) ∨
      e.starts = true ∧ (w.file = none ∨ w.file = (step fromUtf8 d e).tmp) := by
  cases e with
  | start text opens =>
      obtain ⟨w', hpolls, hfile⟩ := @step_start fromUtf8 d text opens
      rw [writer, hpolls] at h
      rcases writer_append h with hold | ⟨-, rfl⟩
      · exact .inl ⟨w, hold, rfl⟩
      · exact .inr ⟨rfl, hfile⟩
  | write i n =>
      rw [step] at h
      split at h
      next w₀ hw₀ =>
        rw [writer, writer_set hw₀] at h
        split at h
        next hj =>
          rw [hj]
          exact .inl ⟨w₀, hw₀, by rw [← Option.some.inj h]⟩
        next => exact .inl ⟨w, h, rfl⟩
      next => exact .inl ⟨w, h, rfl⟩
  | fail i =>
      rw [step] at h
      split at h
      next w₀ hw₀ =>
        rw [setWriter, writer, writer_set hw₀] at h
        split at h
        next hj =>
          rw [hj]
          exact .inl ⟨w₀, hw₀, by rw [← Option.some.inj h]⟩
        next => exact .inl ⟨w, h, rfl⟩
      next => exact .inl ⟨w, h, rfl⟩
  | rename i =>
      rw [step] at h
      split at h
      next w₀ hw₀ =>
        split at h
        · rw [writer, writer_set hw₀] at h
          split at h
          · cases h
          · exact .inl ⟨w, h, rfl⟩
        · exact .inl ⟨w, h, rfl⟩
      next => exact .inl ⟨w, h, rfl⟩
  | kill i =>
      rw [step, writer_kill] at h
      split at h
      · cases h
      · exact .inl ⟨w, h, rfl⟩
  | reload | loadFailed => exact .inl ⟨w, h, rfl⟩

theorem tmp_step (d : Desktop) (e : Event) :
    (step fromUtf8 d e).tmp = d.tmp ∨ (step fromUtf8 d e).tmp = none ∨
      (step fromUtf8 d e).tmp = some d.files.length := by
  cases e with
  | start text opens =>
      rw [step]
      split
      · rw [openTmp]
        split
        · exact .inl rfl
        · exact .inr (.inr rfl)
      · exact .inl rfl
  | write | fail =>
      rw [step]
      split <;> exact .inl rfl
  | rename i =>
      rw [step]
      split
      · split
        · exact .inr (.inl rfl)
        · exact .inl rfl
      · exact .inl rfl
  | kill | reload | loadFailed => exact .inl rfl

/-- The cache changes only when a file gets into its place. -/
theorem cache_step {d : Desktop} {e : Event} (h : d.places e = []) :
    (step fromUtf8 d e).cache = d.cache := by
  cases e with
  | start text opens =>
      rw [step]
      split
      · rw [openTmp]
        split <;> rfl
      · rfl
  | write | fail =>
      rw [step]
      split <;> rfl
  | rename i =>
      rw [places] at h
      rw [step]
      split
      next w hwriter =>
        rw [hwriter] at h
        dsimp only at h
        split
        next hrest =>
          rw [if_pos hrest] at h
          cases htmp : d.tmp with
          | none => rfl
          | some f =>
              rw [htmp] at h
              cases h
        next => rfl
      next => rfl
  | kill | reload | loadFailed => rfl

/-- A file keeps its content if it is not the temporary one and nobody writes into it. -/
theorem content_step {d : Desktop} {f : Nat} {octets : List UInt8} (h : d.files[f]? = some octets)
    (htmp : d.tmp ≠ some f) (hwriters : ∀ j w, d.writer j = some w → w.file ≠ some f) (e : Event) :
    (step fromUtf8 d e).files[f]? = some octets := by
  cases e with
  | start text opens =>
      rw [step]
      split
      · rw [openTmp]
        split
        next g hg =>
          have hne : g ≠ f := fun heq => htmp (heq ▸ hg)
          dsimp only
          rw [List.getElem?_set_ne hne, h]
        next =>
          obtain ⟨hf, -⟩ := List.getElem?_eq_some_iff.mp h
          dsimp only
          rw [List.getElem?_append_left hf, h]
      · exact h
  | write i n =>
      rw [step]
      split
      next w hwriter =>
        cases hfile : w.file with
        | none => exact h
        | some g =>
            have hne : g ≠ f := fun heq => hwriters i w hwriter (heq ▸ hfile)
            dsimp only [Option.elim]
            rw [List.getElem?_modify, h]
            simp [hne]
      next => exact h
  | fail i =>
      rw [step]
      split <;> exact h
  | rename i =>
      rw [step]
      split
      · split <;> exact h
      · exact h
  | kill | reload | loadFailed => exact h

/-! ### A file that has got into place -/

/-- The cache is this file and holds this; it has no other name, and nobody has it open. -/
structure Kept (d : Desktop) (f : Nat) (octets : List UInt8) : Prop where
  cache : d.cache = some f
  content : d.files[f]? = some octets
  tmp : d.tmp ≠ some f
  writers : ∀ j w, d.writer j = some w → w.file ≠ some f

/-- It stays as it is until another file gets into its place. -/
theorem Kept.step {d : Desktop} {f : Nat} {octets : List UInt8} (h : Kept d f octets) {e : Event}
    (hplaces : d.places e = []) : Kept (Desktop.step fromUtf8 d e) f octets := by
  have htmp : (Desktop.step fromUtf8 d e).tmp ≠ some f := by
    obtain ⟨hf, -⟩ := List.getElem?_eq_some_iff.mp h.content
    rcases @tmp_step fromUtf8 d e with hold | hnone | hnew
    · exact hold ▸ h.tmp
    · simp [hnone]
    · intro heq
      have hlast := Option.some.inj (hnew.symm.trans heq)
      omega
  refine ⟨(cache_step hplaces).trans h.cache, content_step h.content h.tmp h.writers e, htmp,
    fun j w hw => ?_⟩
  rcases writer_step hw with ⟨w₀, hw₀, hfile⟩ | ⟨-, hnone | hsome⟩
  · exact hfile ▸ h.writers j w₀ hw₀
  · simp [hnone]
  · exact hsome ▸ htmp

theorem Kept.run {d : Desktop} {f : Nat} {octets : List UInt8} (h : Kept d f octets)
    {es : List Event} (hplaced : placed fromUtf8 d es = []) :
    Kept (Desktop.run fromUtf8 d es) f octets := by
  induction es generalizing d with
  | nil => exact h
  | cons e es ih =>
      rw [placed, Runs.written_cons] at hplaced
      obtain ⟨hplaces, hplaced⟩ := List.append_eq_nil_iff.mp hplaced
      exact ih (h.step hplaces) hplaced

/-- Before the first file has got into place there is no cache. -/
theorem cache_run {d : Desktop} {es : List Event} (hplaced : placed fromUtf8 d es = []) :
    (run fromUtf8 d es).cache = d.cache := by
  induction es generalizing d with
  | nil => rfl
  | cons e es ih =>
      rw [placed, Runs.written_cons] at hplaced
      obtain ⟨hplaces, hplaced⟩ := List.append_eq_nil_iff.mp hplaced
      exact (ih hplaced).trans (cache_step hplaces)

/-! ### A poll that is alone -/

/-- No poll runs. -/
def Idle (d : Desktop) : Prop := ∀ w ∈ d.polls, w = none

instance (d : Desktop) : Decidable d.Idle := inferInstanceAs (Decidable (∀ w ∈ d.polls, w = none))

theorem Idle.writer {d : Desktop} (h : d.Idle) (i : Nat) : d.writer i = none := by
  rw [Desktop.writer]
  cases hw : d.polls[i]? with
  | none => rfl
  | some w => exact h w (List.mem_of_getElem? hw)

/-- The `i`th poll is the only one that runs; and while it does, the temporary file is its own
and holds what it has written. -/
structure Alone (d : Desktop) (i f : Nat) (text : List UInt8) : Prop where
  others : ∀ j, j ≠ i → d.writer j = none
  tmp : ∀ w, d.writer i = some w → d.tmp = some f ∧ w.file = some f
  content : ∀ w, d.writer i = some w → w.offset ≤ text.length ∧
    d.files[f]? = some (text.take w.offset) ∧ (w.rest = text.drop w.offset ∨ w.rest = [])

theorem Alone.eq_of_writer {d : Desktop} {i f j : Nat} {text : List UInt8} (h : Alone d i f text)
    {w : Writer} (hwriter : d.writer j = some w) : j = i := by
  by_contra hj
  rw [h.others j hj] at hwriter
  cases hwriter

/-- What a poll writes it appends to what it has written. -/
theorem writeAt_take {text : List UInt8} {offset : Nat} (hle : offset ≤ text.length) (n : Nat) :
    writeAt offset ((text.drop offset).take n) (text.take offset) =
      text.take (offset + ((text.drop offset).take n).length) := by
  have hlength : (text.take offset).length = offset := List.length_take_of_le hle
  have hprefix := List.prefix_iff_eq_take.mp (List.take_prefix n (text.drop offset))
  have happend := writeAt_length ((text.drop offset).take n) (text.take offset)
  rw [hlength] at happend
  rw [happend, List.take_add, ← hprefix]

theorem drop_written {text : List UInt8} (offset n : Nat) :
    (text.drop offset).drop n = text.drop (offset + ((text.drop offset).take n).length) ∨
      (text.drop offset).drop n = [] := by
  rcases Nat.le_total n (text.drop offset).length with hn | hn
  · left
    rw [List.length_take_of_le hn, List.drop_drop]
  · right
    exact List.drop_of_length_le hn

theorem Alone.step {d : Desktop} {i f : Nat} {text : List UInt8} (h : Alone d i f text) {e : Event}
    (hstart : e.starts = false) : Alone (Desktop.step fromUtf8 d e) i f text := by
  have hothers : ∀ j, j ≠ i → (Desktop.step fromUtf8 d e).writer j = none := by
    intro j hj
    cases hw : (Desktop.step fromUtf8 d e).writer j with
    | none => rfl
    | some w =>
        rcases writer_step hw with ⟨w₀, hw₀, -⟩ | ⟨hstarts, -⟩
        · rw [h.others j hj] at hw₀
          cases hw₀
        · rw [hstart] at hstarts
          cases hstarts
  cases e with
  | start => cases hstart
  | write j n =>
      cases hwriter : d.writer j with
      | none =>
          rw [Desktop.step, hwriter]
          exact h
      | some w =>
          obtain rfl := h.eq_of_writer hwriter
          obtain ⟨htmp, hfile⟩ := h.tmp w hwriter
          obtain ⟨hle, hcontent, hrest⟩ := h.content w hwriter
          have hnew : ∀ w', (Desktop.step fromUtf8 d (.write j n)).writer j = some w' →
              w' = { w with offset := w.offset + (w.rest.take n).length, rest := w.rest.drop n } := by
            intro w' hw'
            rw [Desktop.step, hwriter] at hw'
            dsimp only at hw'
            rw [writer, writer_set hwriter, if_pos rfl] at hw'
            exact (Option.some.inj hw').symm
          have hfiles : (Desktop.step fromUtf8 d (.write j n)).files[f]? =
              some (writeAt w.offset (w.rest.take n) (text.take w.offset)) := by
            rw [Desktop.step, hwriter]
            dsimp only
            rw [hfile, Option.elim_some, List.getElem?_modify, hcontent]
            simp
          refine ⟨hothers, fun w' hw' => ?_, fun w' hw' => ?_⟩
          · rw [hnew w' hw', Desktop.step, hwriter]
            exact ⟨htmp, hfile⟩
          · rw [hnew w' hw', hfiles]
            rcases hrest with hrest | hrest
            · rw [hrest]
              refine ⟨?_, congrArg some (writeAt_take hle n), drop_written w.offset n⟩
              dsimp only
              rw [List.length_take, List.length_drop]
              omega
            · rw [hrest, List.take_nil, List.drop_nil]
              refine ⟨hle, ?_, .inr rfl⟩
              rw [writeAt, if_pos rfl]
              rfl
  | fail j =>
      cases hwriter : d.writer j with
      | none =>
          rw [Desktop.step, hwriter]
          exact h
      | some w =>
          obtain rfl := h.eq_of_writer hwriter
          have hnew : ∀ w', (Desktop.step fromUtf8 d (.fail j)).writer j = some w' →
              w' = { w with rest := [] } := by
            intro w' hw'
            rw [Desktop.step, hwriter] at hw'
            dsimp only at hw'
            rw [setWriter, writer, writer_set hwriter, if_pos rfl] at hw'
            exact (Option.some.inj hw').symm
          obtain ⟨hle, hcontent, -⟩ := h.content w hwriter
          refine ⟨hothers, fun w' hw' => ?_, fun w' hw' => ?_⟩
          · rw [hnew w' hw', Desktop.step, hwriter]
            exact h.tmp w hwriter
          · rw [hnew w' hw', Desktop.step, hwriter]
            exact ⟨hle, hcontent, .inr rfl⟩
  | rename j =>
      cases hwriter : d.writer j with
      | none =>
          rw [Desktop.step, hwriter]
          exact h
      | some w =>
          obtain rfl := h.eq_of_writer hwriter
          by_cases hrest : w.rest = []
          · have hgone : (Desktop.step fromUtf8 d (.rename j)).writer j = none := by
              rw [Desktop.step, hwriter]
              dsimp only
              rw [if_pos hrest, writer, writer_set hwriter, if_pos rfl]
            refine ⟨hothers, fun w' hw' => ?_, fun w' hw' => ?_⟩ <;>
              · rw [hgone] at hw'
                cases hw'
          · rw [Desktop.step, hwriter]
            dsimp only
            rw [if_neg hrest]
            exact h
  | kill j =>
      have hkept : ∀ w', (Desktop.step fromUtf8 d (.kill j)).writer i = some w' →
          d.writer i = some w' := by
        intro w' hw'
        rw [Desktop.step, writer_kill] at hw'
        split at hw'
        · cases hw'
        · exact hw'
      exact ⟨hothers, fun w' hw' => h.tmp w' (hkept w' hw'),
        fun w' hw' => h.content w' (hkept w' hw')⟩
  | reload | loadFailed => exact ⟨hothers, h.tmp, h.content⟩

theorem Alone.run {d : Desktop} {i f : Nat} {text : List UInt8} (h : Alone d i f text)
    {es : List Event} (hstarts : ∀ e ∈ es, e.starts = false) :
    Alone (Desktop.run fromUtf8 d es) i f text := by
  induction es generalizing d with
  | nil => exact h
  | cons e es ih =>
      obtain ⟨he, hes⟩ := List.forall_mem_cons.mp hstarts
      exact ih (h.step he) hes

/-- The temporary file is one of the files. -/
theorem tmp_lt_step {d : Desktop} (h : ∀ f, d.tmp = some f → f < d.files.length) (e : Event) :
    ∀ f, (step fromUtf8 d e).tmp = some f → f < (step fromUtf8 d e).files.length := by
  intro f hf
  cases e with
  | start text opens =>
      cases opens with
      | false => exact h f hf
      | true =>
          rw [step, if_pos rfl, openTmp] at hf ⊢
          cases htmp : d.tmp with
          | some g =>
              rw [htmp] at hf
              dsimp only at hf ⊢
              rw [List.length_set]
              exact h f (htmp.trans hf)
          | none =>
              rw [htmp] at hf
              obtain rfl := Option.some.inj hf
              simp
  | write i n =>
      rw [step] at hf ⊢
      cases hwriter : d.writer i with
      | none =>
          rw [hwriter] at hf
          exact h f hf
      | some w =>
          rw [hwriter] at hf
          dsimp only at hf ⊢
          cases w.file with
          | none => exact h f hf
          | some g =>
              rw [Option.elim_some, List.length_modify]
              exact h f hf
  | fail i =>
      rw [step] at hf ⊢
      cases hwriter : d.writer i with
      | none | some =>
          rw [hwriter] at hf
          exact h f hf
  | rename i =>
      rw [step] at hf ⊢
      cases hwriter : d.writer i with
      | none =>
          rw [hwriter] at hf
          exact h f hf
      | some w =>
          rw [hwriter] at hf
          dsimp only at hf ⊢
          by_cases hrest : w.rest = []
          · rw [if_pos hrest] at hf
            cases hf
          · rw [if_neg hrest] at hf ⊢
            exact h f hf
  | kill | reload | loadFailed => exact h f hf

theorem tmp_lt_run (es : List Event) :
    ∀ f, (run fromUtf8 {} es).tmp = some f → f < (run fromUtf8 {} es).files.length := by
  induction es using List.reverseRecOn with
  | nil =>
      intro f hf
      cases hf
  | append_singleton es e ih =>
      rw [run_concat]
      exact tmp_lt_step ih e

/-- A poll that starts while none runs. -/
theorem alone_start {d : Desktop} (hidle : d.Idle)
    (htmp : ∀ f, d.tmp = some f → f < d.files.length) (text : List UInt8) :
    ∃ f, Alone (step fromUtf8 d (.start text true)) d.polls.length f text := by
  have hopened : ∃ f, (step fromUtf8 d (.start text true)).tmp = some f ∧
      (step fromUtf8 d (.start text true)).files[f]? = some [] ∧
      (step fromUtf8 d (.start text true)).polls =
        d.polls ++ [some { file := some f, rest := text }] := by
    rw [step, if_pos rfl, openTmp]
    cases hname : d.tmp with
    | some f => exact ⟨f, rfl, List.getElem?_set_self (htmp f hname), rfl⟩
    | none => exact ⟨_, rfl, List.getElem?_concat_length, rfl⟩
  obtain ⟨f, hname, hcontent, hpolls⟩ := hopened
  have hwriters : ∀ j w, (step fromUtf8 d (.start text true)).writer j = some w →
      j = d.polls.length ∧ w = { file := some f, rest := text } := by
    intro j w hw
    rw [writer, hpolls] at hw
    refine (writer_append hw).resolve_left fun hold => ?_
    rw [hidle.writer j] at hold
    cases hold
  refine ⟨f, fun j hj => ?_, fun w hw => ?_, fun w hw => ?_⟩
  · cases hw : (step fromUtf8 d (.start text true)).writer j with
    | none => rfl
    | some w => exact absurd (hwriters j w hw).1 hj
  · obtain ⟨-, rfl⟩ := hwriters _ w hw
    exact ⟨hname, rfl⟩
  · obtain ⟨-, rfl⟩ := hwriters _ w hw
    exact ⟨Nat.zero_le _, hcontent, .inl rfl⟩

/-- When it has closed the file, the file gets into place with what was written. -/
theorem Alone.rename {d : Desktop} {i f : Nat} {text : List UInt8} (h : Alone d i f text)
    {w : Writer} (hwriter : d.writer i = some w) (hrest : w.rest = []) :
    Kept (Desktop.step fromUtf8 d (.rename i)) f (text.take w.offset) := by
  obtain ⟨htmp, -⟩ := h.tmp w hwriter
  obtain ⟨-, hcontent, -⟩ := h.content w hwriter
  have hnobody : ∀ j, (Desktop.step fromUtf8 d (.rename i)).writer j = none := by
    intro j
    rw [Desktop.step, hwriter]
    dsimp only
    rw [if_pos hrest, writer, writer_set hwriter]
    split
    · rfl
    next hj => exact h.others j hj
  have hstep : Desktop.step fromUtf8 d (.rename i) =
      { d with tmp := none, cache := some f, polls := d.polls.set i none } := by
    rw [Desktop.step, hwriter]
    dsimp only
    rw [if_pos hrest, htmp, Option.some_or]
  refine ⟨by rw [hstep], by rw [hstep]; exact hcontent, by rw [hstep]; simp, fun j w hw => ?_⟩
  rw [hnobody j] at hw
  cases hw

end

/-- The last file that got into the cache's place is that of a poll with this text, which was
alone from its start on, and which has written the first `n` octets. -/
def LastAlone (fromUtf8 : List UInt8 → String) (es : List Event) (text : List UInt8) (n : Nat) :
    Prop :=
  ∃ past mid since, let d := run fromUtf8 {} past
    let i := d.polls.length
    let d' := run fromUtf8 d (.start text true :: mid)
    es = past ++ .start text true :: (mid ++ .rename i :: since) ∧
      d.Idle ∧ (∀ e ∈ mid, e.starts = false) ∧
      (∃ w, d'.writer i = some w ∧ w.rest = [] ∧ w.offset = n) ∧
      placed fromUtf8 (step fromUtf8 d' (.rename i)) since = []

variable {fromUtf8 : List UInt8 → String}

/-- Its octets are what is in the cache. -/
theorem kept_of_lastAlone {es : List Event} {text : List UInt8} {n : Nat}
    (h : LastAlone fromUtf8 es text n) : ∃ f, Kept (run fromUtf8 {} es) f (text.take n) := by
  obtain ⟨past, mid, since, rfl, hidle, hmid, ⟨w, hwriter, hrest, rfl⟩, hplaced⟩ := h
  obtain ⟨f, hstart⟩ := alone_start hidle (tmp_lt_run past) text
  have hkept := ((hstart.run hmid).rename hwriter hrest).run hplaced
  refine ⟨f, ?_⟩
  rw [run_append, run_cons, run_append, run_cons]
  exact hkept

/-! ### What the widget shows -/

/-- The widget reads the file, or fails to. -/
def Event.reads : Event → Bool
  | reload | loadFailed => true
  | _ => false

/-- What the widget holds stays until it reads again. -/
theorem hosts_step {e : Event} (h : e.reads = false) (d : Desktop) :
    (step fromUtf8 d e).hosts = d.hosts := by
  cases e with
  | start text opens =>
      rw [step]
      split
      · rw [openTmp]
        split <;> rfl
      · rfl
  | write | fail =>
      rw [step]
      split <;> rfl
  | rename =>
      rw [step]
      split
      · split <;> rfl
      · rfl
  | kill => rfl
  | reload | loadFailed => cases h

theorem hosts_run {es : List Event} (h : ∀ e ∈ es, e.reads = false) (d : Desktop) :
    (run fromUtf8 d es).hosts = d.hosts := by
  induction es using List.reverseRecOn with
  | nil => rfl
  | append_singleton es e ih =>
      rw [run_concat, hosts_step (h e (by simp)), ih fun e' he' => h e' (List.mem_append_left _ he')]

end Desktop

/-- What `text()` is for: UTF-8 is read as the text it stands for. -/
def ReadsUtf8 (fromUtf8 : List UInt8 → String) : Prop := ∀ s, fromUtf8 (Utf8.bytes s) = s

/-- One headless poll: the registry's hosts, how each request ends, and the clock. -/
structure Poll where
  hosts : List HostEntry
  outcome : HostEntry → Outcome
  now : HostEntry → String

section

variable (toStringPretty : Response → String) (errorText : SendError → String)
  (printHuman : Request → Response → String × Except String Unit)

def pollCache (poll : Poll) : StatusCache :=
  runStatusPoll (fun host => (poll.outcome host).result toStringPretty errorText printHuman .status)
    poll.now poll.hosts

/-- The entry of a host is on exactly if the daemon said yes. -/
theorem online_pollHost (poll : Poll) (host : HostEntry) (now : String) :
    (pollHost host ((poll.outcome host).result toStringPretty errorText printHuman .status)
      now).online = (poll.outcome host).accepted := by
  rw [Bool.eq_iff_iff, pollHost, Outcome.result_ok_iff]
  cases poll.outcome host with
  | answered resp =>
      constructor
      · intro h
        obtain ⟨resp', hresp, hok⟩ := h
        obtain rfl := Outcome.answered.inj hresp
        exact hok
      · exact fun h => ⟨resp, rfl, h⟩
  | sshFailed | agentdUnreachable => simp [Outcome.accepted]

/-- The rows of a poll's entries. -/
theorem rows_pollCache (poll : Poll) :
    ((pollCache toStringPretty errorText printHuman poll).entries.map HostStatus.toValue).map
        BarWidget.row =
      poll.hosts.map fun host =>
        (host.name, if (poll.outcome host).accepted then "online" else "offline") := by
  rw [pollCache, entries_runStatusPoll, List.map_map, List.map_map]
  refine List.map_congr_left fun host _ => ?_
  show BarWidget.row (HostStatus.toValue (pollHost host _ _)) = _
  rw [BarWidget.row_toValue, online_pollHost]
  rfl

/-- The icon is highlighted for a poll with a host that did not say yes. -/
theorem anyOffline_pollCache (poll : Poll) :
    BarWidget.anyOffline
        ((pollCache toStringPretty errorText printHuman poll).entries.map HostStatus.toValue) = true ↔
      ∃ host ∈ poll.hosts, (poll.outcome host).accepted = false := by
  rw [BarWidget.anyOffline_iff, pollCache, entries_runStatusPoll, List.map_map]
  constructor
  · intro h
    obtain ⟨v, hv, hoff⟩ := h
    obtain ⟨host, hhost, rfl⟩ := List.mem_map.mp hv
    have hoff' := (BarWidget.isOnline_toValue _).symm.trans hoff
    rw [online_pollHost] at hoff'
    exact ⟨host, hhost, hoff'⟩
  · intro h
    obtain ⟨host, hhost, hoff⟩ := h
    refine ⟨_, List.mem_map_of_mem hhost, ?_⟩
    show BarWidget.isOnline (HostStatus.toValue (pollHost host _ _)) = false
    rw [BarWidget.isOnline_toValue, online_pollHost, hoff]

end

namespace Desktop

/-- What the widget shows after a read is what was in the cache. -/
theorem hosts_reload {fromUtf8 : List UInt8 → String} {before after : List Event}
    (hafter : ∀ e ∈ after, e.reads = false) :
    (run fromUtf8 {} (before ++ .reload :: after)).hosts =
      match (run fromUtf8 {} before).cache.bind ((run fromUtf8 {} before).files[·]?) with
      | some octets => BarWidget.parseCache (fromUtf8 octets)
      | none => [] := by
  rw [run_append, run_cons, hosts_run hafter]
  rfl

/-- **The panel shows a whole poll or nothing.** Whatever polls have been started, side by
side or not, cut short, killed or brought to their end, and whenever the widget has read: as
long as no file has got into place, a read finds nothing. If the last file is that of a poll
that was alone, then after a read, and until the next one, there is one row for each host of
that poll, in the registry's order and with its name, which says online exactly if that host's
daemon answered with a yes, and the icon is highlighted exactly if one of them did not — given
that all of the text was written, up to the last line feed; if it was cut short before, there
are no rows. -/
theorem shows_last_poll {fromUtf8 : List UInt8 → String} (hutf8 : ReadsUtf8 fromUtf8)
    (toStringPretty : Response → String) (errorText : SendError → String)
    (printHuman : Request → Response → String × Except String Unit) (before : List Event)
    {after : List Event} (hafter : ∀ e ∈ after, e.reads = false) :
    let shown := (run fromUtf8 {} (before ++ .reload :: after)).hosts
    (placed fromUtf8 {} before = [] → shown = []) ∧
      ∀ poll n, let text := (pollCache toStringPretty errorText printHuman poll).write
        LastAlone fromUtf8 before text n →
          (text.length ≤ n + 1 →
            shown.map BarWidget.row = (poll.hosts.map fun host =>
                (host.name, if (poll.outcome host).accepted then "online" else "offline")) ∧
              (BarWidget.anyOffline shown = true ↔
                ∃ host ∈ poll.hosts, (poll.outcome host).accepted = false)) ∧
          (n + 1 < text.length → (∃ content, Utf8.bytes content = text.take n) → shown = []) := by
  intro shown
  have hshown := @hosts_reload fromUtf8 before after hafter
  constructor
  · intro hplaced
    rw [cache_run hplaced] at hshown
    exact hshown
  · intro poll n text hlast
    obtain ⟨f, hkept⟩ := kept_of_lastAlone hlast
    rw [hkept.cache, Option.bind_some, hkept.content] at hshown
    dsimp only at hshown
    constructor
    · intro hwhole
      obtain ⟨content, hcontent⟩ := BarWidget.exists_content hwhole
      rw [← hcontent, hutf8, BarWidget.parseCache_take hwhole hcontent] at hshown
      rw [show shown = _ from hshown]
      exact ⟨rows_pollCache _ _ _ poll, anyOffline_pollCache _ _ _ poll⟩
    · intro hcut hbound
      obtain ⟨content, hcontent⟩ := hbound
      rw [← hcontent, hutf8, BarWidget.parseCache_cut hcut hcontent] at hshown
      exact hshown

end Desktop

/-- Mia's computer answers, Ben's daemon does not. -/
def kidsPoll : Poll where
  hosts := [{ name := "Mia" }, { name := "Ben" }]
  outcome host := if host.name = "Mia" then .answered .okEmpty else .agentdUnreachable .noResponse
  now _ := "2024-05-01T12:00:00Z"

namespace Desktop

def kidsText : List UInt8 := (pollCache printAnswer (fun _ => "") printNothing kidsPoll).write

/-- Two polls at once, of which one is killed and the other renames what they have made of the
temporary file. -/
def kidsPast : List Event :=
  [.start kidsText true, .write 0 40, .start kidsText true, .write 1 30, .write 0 1000, .kill 1,
    .rename 0, .reload]

/-- What happens after the whole poll, before the widget reads: one that fails to write. -/
def kidsSince : List Event := [.start kidsText true, .write 3 5, .fail 3, .start kidsText false]

def kidsBefore : List Event :=
  kidsPast ++ .start kidsText true :: ([.write 2 100, .write 2 1000] ++ .rename 2 :: kidsSince)

/-- `QString::fromUtf8`, with one replacement for a text that is none. -/
def lossy (octets : List UInt8) : String := (Utf8.decode octets).getD "\ufffd"

theorem readsUtf8_lossy : ReadsUtf8 lossy := by
  intro s
  rw [lossy, Utf8.decode_bytes, Option.getD_some]

theorem lastAlone_kids : LastAlone lossy kidsBefore kidsText kidsText.length := by
  have hwritten : ((run lossy (run lossy {} kidsPast) [.start kidsText true, .write 2 100,
      .write 2 1000]).writer 2).map (fun w => (w.rest, w.offset)) = some ([], kidsText.length) := by
    decide +kernel
  obtain ⟨w, hwriter, hw⟩ := Option.map_eq_some_iff.mp hwritten
  obtain ⟨hrest, hoffset⟩ := Prod.mk.inj hw
  refine ⟨kidsPast, [.write 2 100, .write 2 1000], kidsSince, rfl, by decide +kernel, ?_,
    ⟨w, hwriter, hrest, hoffset⟩, by decide +kernel⟩
  simp [Event.starts]

theorem shows_last_poll_kids :
    let shown := (run lossy {} (kidsBefore ++ .reload :: [.rename 3, .kill 4])).hosts
    shown.map BarWidget.row = (kidsPoll.hosts.map fun host =>
        (host.name, if (kidsPoll.outcome host).accepted then "online" else "offline")) ∧
      (BarWidget.anyOffline shown = true ↔
        ∃ host ∈ kidsPoll.hosts, (kidsPoll.outcome host).accepted = false) := by
  have hafter : ∀ e ∈ [Event.rename 3, .kill 4], e.reads = false := by simp [Event.reads]
  obtain ⟨-, hlast⟩ := shows_last_poll readsUtf8_lossy printAnswer (fun _ => "") printNothing
    kidsBefore hafter
  obtain ⟨hwhole, -⟩ := hlast kidsPoll kidsText.length lastAlone_kids
  exact hwhole (Nat.le_add_right kidsText.length 1)

example : (run lossy {} (kidsBefore ++ [.reload])).hosts.map BarWidget.row =
    [("Mia", "online"), ("Ben", "offline")] := by decide +kernel

example : (run lossy {} (kidsBefore ++ [.rename 3, .reload])).hosts.map BarWidget.row = [] := by
  decide +kernel

end Desktop

end OmarchyKids
