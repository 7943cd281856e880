import OmarchyKids.Common.Config
import OmarchyKids.Lib.JsonPrint
import OmarchyKids.Lib.JsonRecords
import OmarchyKids.Lib.Runs

/-!
# OmarchyKids.Tiers.Launcher

The launcher of the mini tier: a grid of tiles, a question before powering off, and a
banner for the pre-warnings.

The tiles come from `launcher-apps.json`, which the daemon writes; the power-off tile stands
behind them, also when the file is no JSON. A row's members are the roles of a `ListModel`,
whose types are fixed by the values that come first; what it makes of other things than
tiles is left open, and its rows come with the event that fills it. An invisible row gets no
clicks, and without the panel there are no keys, so what an event does depends on what is on
the screen.
-/

namespace OmarchyKids

open JsonText (Value)

/-! ### The tiles -/

/-- What a tile should read as. -/
def LauncherTile.toValue (t : LauncherTile) : Value :=
  .obj [("desktopId", .str t.desktopId), ("label", .str t.label), ("icon", .str t.icon),
    ("swatch", .str t.swatch)]

/-- What `serde_json::to_string_pretty` is for: it prints a JSON text of the tiles. -/
def PrintsTiles (print : List LauncherTile → String) : Prop :=
  ∀ tiles, JsonText.Document (print tiles).toList (.arr (tiles.map LauncherTile.toValue))

/-- Two spaces for each level. -/
def prettyTiles (tiles : List LauncherTile) : String :=
  String.ofList (JsonText.print JsonText.pretty 0 (.arr (tiles.map LauncherTile.toValue)))

theorem printsTiles_prettyTiles : PrintsTiles prettyTiles := by
  intro tiles
  rw [prettyTiles, String.toList_ofList]
  exact JsonText.document_print _ _

namespace Launcher

def roles : List String := ["desktopId", "label", "icon", "swatch"]

/-- A role of a row: the last member of this name, which must be a string. -/
def role (name : String) (members : List (String × Value)) : Option String :=
  match members.reverse.find? fun m => m.1 = name with
  | some (_, .str s) => some s
  | _ => none

/-- `ListModel.append` of an object that has these members and no others. -/
def tileRow : Value → Option LauncherTile
  | .obj members =>
      if members.all fun m => roles.contains m.1 then do
        let desktopId ← role "desktopId" members
        let label ← role "label" members
        let icon ← role "icon" members
        let swatch ← role "swatch" members
        return ⟨desktopId, label, icon, swatch⟩
      else none
  | _ => none

def powerOffId : String := "__power_off__"

def powerOffTile : LauncherTile := ⟨powerOffId, "Ausschalten", "system-shutdown", "#64748B"⟩

/-- `loadTiles`: the rows a text makes, if it is a list of tiles or no JSON at all. For
JavaScript half of a surrogate pair is a character, so with escapes a text may be JSON that
is none here. -/
def loadTiles (raw : String) : Option (List LauncherTile) :=
  match JsonText.decode raw.toList with
  | some (.arr items) => (JsonText.readItems tileRow items).map (· ++ [powerOffTile])
  | some _ => none
  | none => if ['\\', 'u'] <:+: raw.toList then none else some [powerOffTile]

theorem tileRow_toValue (t : LauncherTile) : tileRow t.toValue = some t := by
  simp [tileRow, LauncherTile.toValue, roles, role]

/-- What the daemon writes is what the launcher reads. -/
theorem loadTiles_print {print : List LauncherTile → String} (hprint : PrintsTiles print)
    (tiles : List LauncherTile) : loadTiles (print tiles) = some (tiles ++ [powerOffTile]) := by
  rw [loadTiles, JsonText.decode_of_document (hprint tiles)]
  dsimp only
  rw [JsonText.readItems_map fun t _ => tileRow_toValue t, Option.map_some]

/-- Behind all the others stands the power-off tile. -/
theorem getLast_loadTiles {raw : String} {rows : List LauncherTile} (h : loadTiles raw = some rows) :
    rows.getLast? = some powerOffTile := by
  unfold loadTiles at h
  split at h
  · obtain ⟨tiles, -, rfl⟩ := Option.map_eq_some_iff.mp h
    exact List.getLast?_concat
  · cases h
  · split at h
    · cases h
    · obtain rfl := Option.some.inj h
      rfl

end Launcher

/-! ### The machine -/

structure Launcher where
  opened : Bool := false
  selectedIndex : Int := 0
  /-- `tileModel`: empty until a file has been loaded. -/
  tileModel : List LauncherTile := []
  confirmingPowerOff : Bool := false
  /-- 0 is cancel, 1 is confirm. -/
  confirmSelectedIndex : Nat := 0
  warningVisible : Bool := false
  warningSecondsLeft : Int := 0
  deriving DecidableEq

namespace Launcher

inductive Key
  | escape
  | left
  | right
  | enter
  | other
  deriving DecidableEq

inductive Event
  /-- The shell's calls. -/
  | open
  | close
  | toggle
  | key (k : Key)
  /-- The pointer comes to a tile, or clicks it. -/
  | hoverTile (i : Nat)
  | clickTile (i : Nat)
  /-- The same on the two tiles of the question. -/
  | hoverConfirm (i : Nat)
  | clickConfirm (i : Nat)
  /-- `loadTiles` has filled the model, with these rows in all. -/
  | loaded (rows : List LauncherTile)
  | preWarn (app secondsLeft : String)
  | warningHideTimer
  deriving DecidableEq

/-- What the launcher does outside itself. -/
inductive Effect
  | execDetached (argv : List String)
  /-- `shell.hide`. -/
  | hide
  deriving DecidableEq

/-- `Number(s) || 0`, of a text of digits or none. -/
def number (s : String) : Int :=
  if s.toList.all Char.isDigit then JsonText.digitsValue s.toList else 0

/-- A number in a `property int`. -/
def toInt32 (n : Int) : Int := Int.bmod n (2 ^ 32)

def openGrid (l : Launcher) : Launcher :=
  { l with opened := true, selectedIndex := 0, confirmingPowerOff := false,
           confirmSelectedIndex := 0 }

def dismiss (l : Launcher) : Launcher × List Effect :=
  ({ l with opened := false, confirmingPowerOff := false }, [.hide])

/-- `tileModel.get`. -/
def row (l : Launcher) (index : Int) : Option LauncherTile :=
  if index < 0 then none else l.tileModel[index.toNat]?

def launchIndex (l : Launcher) (index : Int) : Launcher × List Effect :=
  match l.row index with
  | none => (l, [])
  | some tile =>
      if tile.desktopId = powerOffId then
        ({ l with confirmingPowerOff := true, confirmSelectedIndex := 0 }, [])
      else
        let (l, effects) := l.dismiss
        (l, effects ++ [.execDetached ["uwsm-app", "--", "omarchy-kids-run", tile.desktopId]])

def confirmPowerOff (l : Launcher) : Launcher × List Effect :=
  let (l, effects) := { l with confirmingPowerOff := false }.dismiss
  (l, effects ++ [.execDetached ["systemctl", "poweroff"]])

def cancelPowerOff (l : Launcher) : Launcher := { l with confirmingPowerOff := false }

/-- `Keys.onPressed`, while the question is asked. -/
def confirmKey (l : Launcher) : Key → Launcher × List Effect
  | .escape => (l.cancelPowerOff, [])
  | .left => ({ l with confirmSelectedIndex := 0 }, [])
  | .right => ({ l with confirmSelectedIndex := 1 }, [])
  | .enter => if l.confirmSelectedIndex = 1 then l.confirmPowerOff else (l.cancelPowerOff, [])
  | .other => (l, [])

/-- `Keys.onPressed`, in the grid. -/
def gridKey (l : Launcher) : Key → Launcher × List Effect
  | .escape => l.dismiss
  | .left => ({ l with selectedIndex := max 0 (l.selectedIndex - 1) }, [])
  | .right =>
      ({ l with selectedIndex := min ((l.tileModel.length : Int) - 1) (l.selectedIndex + 1) }, [])
  | .enter => l.launchIndex l.selectedIndex
  | .other => (l, [])

/-- The grid is on the screen. -/
def Grid (l : Launcher) : Prop := l.opened = true ∧ l.confirmingPowerOff = false

/-- The question is. -/
def Asking (l : Launcher) : Prop := l.opened = true ∧ l.confirmingPowerOff = true

instance (l : Launcher) : Decidable l.Grid := inferInstanceAs (Decidable (_ ∧ _))
instance (l : Launcher) : Decidable l.Asking := inferInstanceAs (Decidable (_ ∧ _))

theorem Grid.not_asking {l : Launcher} (h : l.Grid) : ¬ l.Asking :=
  fun hasking => Bool.false_ne_true (h.2.symm.trans hasking.2)

/-- One event, with what it makes the launcher do. -/
def react (l : Launcher) : Event → Launcher × List Effect
  | .open => (l.openGrid, [])
  | .close => ({ l with opened := false }, [])
  | .toggle => if l.opened then l.dismiss else (l.openGrid, [])
  | .key k => if l.Asking then l.confirmKey k else if l.Grid then l.gridKey k else (l, [])
  | .hoverTile i =>
      if l.Grid ∧ i < l.tileModel.length then ({ l with selectedIndex := i }, []) else (l, [])
  | .clickTile i => if l.Grid ∧ i < l.tileModel.length then l.launchIndex i else (l, [])
  | .hoverConfirm i =>
      if l.Asking ∧ i < 2 then ({ l with confirmSelectedIndex := i }, []) else (l, [])
  | .clickConfirm i =>
      if l.Asking then
        if i = 0 then (l.cancelPowerOff, []) else if i = 1 then l.confirmPowerOff else (l, [])
      else (l, [])
  | .loaded rows => ({ l with tileModel := rows }, [])
  | .preWarn _ secondsLeft =>
      ({ l with warningSecondsLeft := toInt32 (number secondsLeft), warningVisible := true },
        [.execDetached ["canberra-gtk-play", "-i", "alarm-clock-elapsed"]])
  | .warningHideTimer => ({ l with warningVisible := false }, [])

def step (l : Launcher) (e : Event) : Launcher := (l.react e).1

/-- The launcher after these events. -/
def run (es : List Event) : Launcher := Runs.run step {} es

theorem run_concat (es : List Event) (e : Event) : run (es ++ [e]) = (run es).step e :=
  Runs.run_concat _ _ _

/-! ### Powering off -/

def poweroff : Effect := .execDetached ["systemctl", "poweroff"]

/-- This event brings up the question: the power-off tile is chosen. -/
def Chooses (l : Launcher) : Event → Prop
  | .key .enter =>
      l.Grid ∧ ∃ tile, l.row l.selectedIndex = some tile ∧ tile.desktopId = powerOffId
  | .clickTile i => l.Grid ∧ ∃ tile, l.row i = some tile ∧ tile.desktopId = powerOffId
  | _ => False

/-- Where an event moves the cursor of the question. -/
def cursor : Event → Option Nat
  | .key .left => some 0
  | .key .right => some 1
  | .hoverConfirm i => if i < 2 then some i else none
  | _ => none

theorem launchIndex_asking {l : Launcher} {index : Int} (hgrid : l.Grid)
    (h : (l.launchIndex index).1.Asking) :
    (∃ tile, l.row index = some tile ∧ tile.desktopId = powerOffId) ∧
      (l.launchIndex index).1.confirmSelectedIndex = 0 := by
  unfold launchIndex at h ⊢
  cases hrow : l.row index with
  | none =>
      rw [hrow] at h
      exact absurd h.2 (by simp [hgrid.2])
  | some tile =>
      rw [hrow] at h
      dsimp only at h ⊢
      split at h
      next hid =>
        rw [if_pos hid]
        exact ⟨⟨tile, rfl, hid⟩, rfl⟩
      next => cases h.1

/-- The question is on the screen after an event if it was there before and the event moved
its cursor at most, or if the event has brought it up. -/
theorem asking_step {l : Launcher} {e : Event} (h : (l.step e).Asking) :
    (l.Asking ∧ (l.step e).confirmSelectedIndex = (cursor e).getD l.confirmSelectedIndex) ∨
      (l.Chooses e ∧ (l.step e).confirmSelectedIndex = 0) := by
  unfold step at h ⊢
  cases e with
  | «open» => cases h.2
  | close => cases h.1
  | toggle =>
      rw [react] at h
      split at h
      · cases h.1
      · cases h.2
  | key k =>
      rw [react] at h ⊢
      by_cases hasking : l.Asking
      · rw [if_pos hasking] at h ⊢
        left
        refine ⟨hasking, ?_⟩
        cases k with
        | escape => cases h.2
        | left | right | other => rfl
        | enter =>
            rw [confirmKey] at h
            split at h
            · cases h.1
            · cases h.2
      · rw [if_neg hasking] at h ⊢
        by_cases hgrid : l.Grid
        · rw [if_pos hgrid] at h ⊢
          cases k with
          | escape => cases h.1
          | left | right | other => exact absurd h.2 (by simp [gridKey, hgrid.2])
          | enter =>
              obtain ⟨hchosen, hcursor⟩ := launchIndex_asking hgrid h
              exact .inr ⟨⟨hgrid, hchosen⟩, hcursor⟩
        · rw [if_neg hgrid] at h
          exact absurd h hasking
  | hoverTile i =>
      rw [react] at h
      split at h
      next hshown => exact absurd h.2 (by simp [hshown.1.2])
      next hhidden => exact .inl ⟨h, by simp [react, hhidden, cursor]⟩
  | clickTile i =>
      rw [react] at h ⊢
      split at h
      next hshown =>
        obtain ⟨hchosen, hcursor⟩ := launchIndex_asking hshown.1 h
        rw [if_pos hshown]
        exact .inr ⟨⟨hshown.1, hchosen⟩, hcursor⟩
      next hhidden =>
        rw [if_neg hhidden]
        exact .inl ⟨h, rfl⟩
  | hoverConfirm i =>
      rw [react] at h ⊢
      split at h
      next hshown =>
        rw [if_pos hshown]
        exact .inl ⟨hshown.1, by simp [cursor, hshown.2]⟩
      next hhidden =>
        rw [if_neg hhidden]
        refine .inl ⟨h, ?_⟩
        have hout : ¬ i < 2 := fun hi => hhidden ⟨h, hi⟩
        simp [cursor, hout]
  | clickConfirm i =>
      rw [react] at h ⊢
      split at h
      next hasking =>
        split at h
        · cases h.2
        · split at h
          · cases h.1
          next hzero hone =>
            rw [if_pos hasking, if_neg hzero, if_neg hone]
            exact .inl ⟨hasking, rfl⟩
      next hhidden => exact absurd h hhidden
  | loaded rows => exact .inl ⟨h, rfl⟩
  | preWarn app secondsLeft => exact .inl ⟨h, rfl⟩
  | warningHideTimer => exact .inl ⟨h, rfl⟩

theorem Chooses.grid {l : Launcher} {e : Event} (h : l.Chooses e) : l.Grid := by
  cases e with
  | key k =>
      cases k with
      | enter => exact h.1
      | _ => cases h
  | clickTile i => exact h.1
  | _ => cases h

/-- In these events the power-off tile is chosen, and from then on the question is on the
screen. -/
def Asked (before : List Event) (choice : Event) (after : List Event) : Prop :=
  (run before).Chooses choice ∧
    ∀ mid, mid <+: after → (run (before ++ choice :: mid)).Asking

/-- The cursor stands where it was moved last, and on cancel at first. -/
theorem Asked.cursor {before after : List Event} {choice : Event} (h : Asked before choice after) :
    (run (before ++ choice :: after)).confirmSelectedIndex =
      (after.filterMap cursor).getLast?.getD 0 := by
  obtain ⟨hchoice, hasking⟩ := h
  induction after using List.reverseRecOn with
  | nil =>
      have hnow := hasking [] List.prefix_rfl
      rw [run_concat] at hnow ⊢
      rcases asking_step hnow with ⟨hbefore, -⟩ | ⟨-, hzero⟩
      · exact absurd hbefore hchoice.grid.not_asking
      · exact hzero
  | append_singleton after e ih =>
      have hprev := hasking after (List.prefix_append _ _)
      have hnow := hasking (after ++ [e]) List.prefix_rfl
      rw [show before ++ choice :: (after ++ [e]) = before ++ choice :: after ++ [e] by simp,
        run_concat] at hnow ⊢
      rcases asking_step hnow with ⟨-, hcursor⟩ | ⟨hagain, -⟩
      · rw [hcursor, ih fun mid hmid => hasking mid (hmid.trans (List.prefix_append _ _)),
          List.filterMap_append]
        cases hmoved : Launcher.cursor e <;> simp [hmoved]
      · exact absurd hprev hagain.grid.not_asking

/-- Whenever the question is on the screen, the power-off tile has been chosen. -/
theorem asked_of_asking {past : List Event} (h : (run past).Asking) :
    ∃ before choice after, past = before ++ choice :: after ∧ Asked before choice after := by
  induction past using List.reverseRecOn with
  | nil => cases h.1
  | append_singleton past e ih =>
      have hstep := h
      rw [run_concat] at hstep
      rcases asking_step hstep with ⟨hprev, -⟩ | ⟨hchoice, -⟩
      · obtain ⟨before, choice, after, rfl, hasked⟩ := ih hprev
        refine ⟨before, choice, after ++ [e], by simp, hasked.1, fun mid hmid => ?_⟩
        rcases List.prefix_concat_iff.mp hmid with rfl | hmid
        · simpa using h
        · exact hasked.2 mid hmid
      · refine ⟨past, e, [], rfl, hchoice, fun mid hmid => ?_⟩
        rw [List.prefix_nil.mp hmid]
        exact h

theorem poweroff_notMem_launchIndex (l : Launcher) (index : Int) :
    poweroff ∉ (l.launchIndex index).2 := by
  unfold launchIndex
  cases l.row index with
  | none => exact List.not_mem_nil
  | some tile =>
      dsimp only
      split
      · exact List.not_mem_nil
      · simp [dismiss, poweroff]

theorem poweroff_mem_confirmPowerOff (l : Launcher) : poweroff ∈ l.confirmPowerOff.2 := by
  simp [confirmPowerOff, dismiss, poweroff]

theorem poweroff_mem_react_iff {l : Launcher} {e : Event} :
    poweroff ∈ (l.react e).2 ↔
      l.Asking ∧ (e = .clickConfirm 1 ∨ e = .key .enter ∧ l.confirmSelectedIndex = 1) := by
  cases e with
  | «open» | close | loaded | warningHideTimer => simp [react]
  | preWarn => simp [react, poweroff]
  | toggle =>
      rw [react]
      split <;> simp [dismiss, poweroff]
  | hoverTile i =>
      rw [react]
      split <;> simp
  | hoverConfirm i =>
      rw [react]
      split <;> simp
  | clickTile i =>
      rw [react]
      split
      · simp [poweroff_notMem_launchIndex]
      · simp
  | clickConfirm i =>
      rw [react]
      by_cases hasking : l.Asking
      · by_cases hone : i = 1
        · simp [hasking, hone, poweroff_mem_confirmPowerOff]
        · by_cases hzero : i = 0 <;> simp [hasking, hone, hzero]
      · simp [hasking]
  | key k =>
      rw [react]
      by_cases hasking : l.Asking
      · cases k with
        | enter =>
            by_cases hone : l.confirmSelectedIndex = 1
            · simp [hasking, confirmKey, hone, poweroff_mem_confirmPowerOff]
            · simp [hasking, confirmKey, hone]
        | _ => simp [hasking, confirmKey]
      · rw [if_neg hasking]
        split
        · cases k with
          | enter => simp [hasking, gridKey, poweroff_notMem_launchIndex]
          | escape => simp [hasking, gridKey, dismiss, poweroff]
          | _ => simp [gridKey]
        · simp [hasking]

/-- **The machine is powered off only on purpose.** An event powers it off exactly if the
power-off tile was chosen before, the question has been on the screen ever since, and the
event is a click on its second tile, or Enter after the cursor was last moved there. -/
theorem poweroff_iff (past : List Event) (e : Event) :
    poweroff ∈ ((run past).react e).2 ↔
      ∃ before choice after, past = before ++ choice :: after ∧ Asked before choice after ∧
        (e = .clickConfirm 1 ∨
          e = .key .enter ∧ (after.filterMap cursor).getLast? = some 1) := by
  rw [poweroff_mem_react_iff]
  constructor
  · rintro ⟨hasking, he⟩
    obtain ⟨before, choice, after, rfl, hasked⟩ := asked_of_asking hasking
    refine ⟨before, choice, after, rfl, hasked, he.imp_right fun ⟨he, hcursor⟩ => ⟨he, ?_⟩⟩
    rw [hasked.cursor] at hcursor
    cases hlast : (after.filterMap Launcher.cursor).getLast? with
    | none => simp [hlast] at hcursor
    | some i => simpa [hlast] using hcursor
  · rintro ⟨before, choice, after, rfl, hasked, he⟩
    refine ⟨hasked.2 after List.prefix_rfl, he.imp_right fun ⟨he, hcursor⟩ => ⟨he, ?_⟩⟩
    rw [hasked.cursor, hcursor, Option.getD_some]

/-! ### What is on the screen -/

/-- The rows an event puts into the model. -/
def shows : Event → Option (List LauncherTile)
  | .loaded rows => some rows
  | _ => none

theorem launchIndex_tileModel (l : Launcher) (index : Int) :
    (l.launchIndex index).1.tileModel = l.tileModel := by
  unfold launchIndex
  cases l.row index with
  | none => rfl
  | some tile =>
      dsimp only
      split <;> rfl

theorem tileModel_step (l : Launcher) (e : Event) :
    (l.step e).tileModel = (shows e).getD l.tileModel := by
  unfold step
  cases e with
  | «open» | close | loaded | preWarn | warningHideTimer => rfl
  | toggle | hoverTile | hoverConfirm =>
      rw [react]
      split <;> rfl
  | clickTile i =>
      rw [react]
      split
      · exact launchIndex_tileModel l i
      · rfl
  | clickConfirm i =>
      rw [react]
      split
      · split
        · rfl
        · split <;> rfl
      · rfl
  | key k =>
      rw [react]
      split
      · cases k with
        | enter =>
            rw [confirmKey]
            split <;> rfl
        | _ => rfl
      · split
        · cases k with
          | enter => exact launchIndex_tileModel l _
          | _ => rfl
        · rfl

/-- The model holds what it was filled with last; before, it is empty. -/
theorem tileModel_run (es : List Event) :
    (run es).tileModel = (es.map shows).reduceOption.getLast?.getD [] := by
  have hpart := @Runs.run_part _ _ step _ _ (fun rows shown => shown.getD rows) tileModel shows
    tileModel_step {} es
  exact hpart.trans (Runs.run_overwrite _ _)

/-! ### A child can always power off -/

/-- Opens the launcher, goes all the way to the right, and says yes twice. -/
def powerOffKeys (n : Nat) : List Event :=
  .open :: (List.replicate n (.key .right) ++ [.key .enter, .key .right, .key .enter])

/-- All that the launcher does in these events. -/
def effects (l : Launcher) (es : List Event) : List Effect :=
  Runs.written step (fun l e => (l.react e).2) l es

theorem right_step {l : Launcher} (h : l.Grid) :
    l.step (.key .right) =
      { l with selectedIndex := min ((l.tileModel.length : Int) - 1) (l.selectedIndex + 1) } := by
  rw [step, react, if_neg h.not_asking, if_pos h]
  rfl

/-- To the right as often as this, but not past the last tile. -/
theorem right_run (n : Nat) {l : Launcher} (hgrid : l.Grid)
    (hlast : l.selectedIndex ≤ (l.tileModel.length : Int) - 1) :
    Runs.run step l (List.replicate n (.key .right)) =
      { l with selectedIndex := min ((l.tileModel.length : Int) - 1) (l.selectedIndex + n) } := by
  induction n generalizing l with
  | zero => simp [hlast]
  | succ n ih =>
      have hnext : Grid { l with
          selectedIndex := min ((l.tileModel.length : Int) - 1) (l.selectedIndex + 1) } := hgrid
      rw [List.replicate_succ, Runs.run_cons, right_step hgrid, ih hnext (min_le_left _ _)]
      dsimp only
      congr 1
      omega

/-- Only lists of tiles have been loaded, and texts that are no JSON. -/
def Loads (es : List Event) : Prop :=
  ∀ rows, .loaded rows ∈ es → ∃ raw, loadTiles raw = some rows

/-- What is in the model it has been filled with. -/
theorem loaded_of_tileModel {es : List Event} (h : (run es).tileModel ≠ []) :
    .loaded (run es).tileModel ∈ es := by
  rw [tileModel_run] at h ⊢
  cases hlast : (es.map shows).reduceOption.getLast? with
  | none => simp [hlast] at h
  | some rows =>
      have hmem := List.reduceOption_mem_iff.mp (List.mem_of_getLast? hlast)
      obtain ⟨e, he, hshown⟩ := List.mem_map.mp hmem
      cases e with
      | loaded rows' =>
          obtain rfl := Option.some.inj hshown
          exact he
      | _ => cases hshown

theorem tileModel_ne_nil_iff {es : List Event} (hloads : Loads es) :
    (run es).tileModel ≠ [] ↔ ∃ rows, .loaded rows ∈ es := by
  constructor
  · exact fun h => ⟨_, loaded_of_tileModel h⟩
  · intro hloaded
    induction es using List.reverseRecOn with
    | nil => simp at hloaded
    | append_singleton es e ih =>
        rw [run_concat, tileModel_step]
        cases hshown : shows e with
        | none =>
            refine ih (fun rows hrows => hloads rows (List.mem_append_left _ hrows)) ?_
            obtain ⟨rows, hrows⟩ := hloaded
            refine ⟨rows, (List.mem_append.mp hrows).resolve_right fun he => ?_⟩
            obtain rfl := List.mem_singleton.mp he
            cases hshown
        | some rows =>
            cases e with
            | loaded rows' =>
                obtain rfl := Option.some.inj hshown
                obtain ⟨raw, hraw⟩ := hloads rows' (by simp)
                intro hnil
                rw [Option.getD_some] at hnil
                have hlast := getLast_loadTiles hraw
                rw [hnil] at hlast
                cases hlast
            | _ => cases hshown

theorem tileModel_ne_nil_of_row {l : Launcher} {index : Int} {tile : LauncherTile}
    (h : l.row index = some tile) : l.tileModel ≠ [] := by
  intro hnil
  simp [row, hnil] at h

theorem row_last {es : List Event} (hloads : Loads es) (h : (run es).tileModel ≠ []) :
    (run es).tileModel.getLast? = some powerOffTile := by
  obtain ⟨raw, hraw⟩ := hloads _ (loaded_of_tileModel h)
  exact getLast_loadTiles hraw

/-- Yes twice, on the power-off tile. -/
theorem poweroff_mem_yes {l : Launcher} (hgrid : l.Grid)
    (hrow : l.row l.selectedIndex = some powerOffTile) :
    poweroff ∈ effects l [.key .enter, .key .right, .key .enter] := by
  have hchoose : l.react (.key .enter) =
      ({ l with confirmingPowerOff := true, confirmSelectedIndex := 0 }, []) := by
    rw [react, if_neg hgrid.not_asking, if_pos hgrid, gridKey, launchIndex, hrow]
    rfl
  have hasking : Asking { l with confirmingPowerOff := true, confirmSelectedIndex := 0 } :=
    ⟨hgrid.1, rfl⟩
  have hmove : step { l with confirmingPowerOff := true, confirmSelectedIndex := 0 }
      (.key .right) = { l with confirmingPowerOff := true, confirmSelectedIndex := 1 } := by
    rw [step, react, if_pos hasking]
    rfl
  have hyes : poweroff ∈ (react { l with confirmingPowerOff := true, confirmSelectedIndex := 1 }
      (.key .enter)).2 :=
    poweroff_mem_react_iff.mpr ⟨⟨hgrid.1, rfl⟩, .inr ⟨rfl, rfl⟩⟩
  rw [effects, Runs.written_cons, Runs.written_cons, Runs.written_cons, step, hchoose, hmove]
  simp [hyes]

/-- **Powering off is always possible.** Whatever has happened before, with files that hold
tiles or no JSON at all, opening the launcher, going to the last tile and saying yes twice
powers the machine off — as soon as tiles have been loaded at all. -/
theorem power_off_possible_iff {past : List Event} (hloads : Loads past) :
    poweroff ∈ effects (run past) (powerOffKeys (run past).tileModel.length) ↔
      ∃ rows, .loaded rows ∈ past := by
  constructor
  · intro hoff
    obtain ⟨out₁, out₂, hsplit⟩ := List.append_of_mem hoff
    obtain ⟨keys, e, more, _, _, hkeys, hout, -, -⟩ := Runs.written_split hsplit
    have hmem : poweroff ∈ ((run (past ++ keys)).react e).2 := by
      rw [run, Runs.run_append, ← run, hout]
      simp
    obtain ⟨before, choice, after, hpast, hasked, -⟩ := (poweroff_iff (past ++ keys) e).mp hmem
    have hrow : (run before).tileModel ≠ [] := by
      have hchoice := hasked.1
      cases choice with
      | key k =>
          cases k with
          | enter =>
              obtain ⟨-, tile, hrow, -⟩ := hchoice
              exact tileModel_ne_nil_of_row hrow
          | _ => cases hchoice
      | clickTile i =>
          obtain ⟨-, tile, hrow, -⟩ := hchoice
          exact tileModel_ne_nil_of_row hrow
      | _ => cases hchoice
    have hrows := loaded_of_tileModel hrow
    refine ⟨(run before).tileModel, ?_⟩
    have hloaded : Event.loaded (run before).tileModel ∈ past ++ keys := by simp [hpast, hrows]
    -- none of the keys fills the model
    refine (List.mem_append.mp hloaded).resolve_right fun hkey => ?_
    have hall : Event.loaded (run before).tileModel ∈ powerOffKeys (run past).tileModel.length := by
      simp [hkeys, hkey]
    simp [powerOffKeys] at hall
  · intro hloaded
    have hrows := (tileModel_ne_nil_iff hloads).mpr hloaded
    have hlast := row_last hloads hrows
    have hlength := List.length_pos_iff.mpr hrows
    have hopen : (run past).step .open = (run past).openGrid := rfl
    have hgrid : (run past).openGrid.Grid := ⟨rfl, rfl⟩
    have hright := right_run (run past).tileModel.length hgrid
      (show (0 : Int) ≤ ((run past).tileModel.length : Int) - 1 by omega)
    rw [effects, powerOffKeys, Runs.written_cons, Runs.written_append, hopen, hright]
    refine List.mem_append_right _ (List.mem_append_right _ (poweroff_mem_yes hgrid ?_))
    rw [← hlast, List.getLast?_eq_getElem?]
    dsimp only [openGrid, row]
    rw [if_neg (by omega)]
    congr 1
    omega

def letterTile : LauncherTile := ⟨"klettres", "Buchstaben", "klettres", "#2563EB"⟩

/-- A file that is no JSON, then one with a tile; in between, the launcher has been used. -/
def pastLoads : List Event :=
  [.loaded [powerOffTile], .open, .key .enter, .key .right, .loaded [letterTile, powerOffTile],
    .preWarn "klettres" "120"]

theorem power_off_possible_iff_letters :
    poweroff ∈ effects (run pastLoads) (powerOffKeys (run pastLoads).tileModel.length) ↔
      ∃ rows, .loaded rows ∈ pastLoads := by
  refine power_off_possible_iff fun rows hrows => ?_
  have hcases : rows = [powerOffTile] ∨ rows = [letterTile] ++ [powerOffTile] := by
    simpa [pastLoads] using hrows
  rcases hcases with rfl | rfl
  · exact ⟨"[\x7b", by decide +kernel⟩
  · exact ⟨prettyTiles [letterTile], loadTiles_print printsTiles_prettyTiles _⟩

end Launcher

end OmarchyKids
