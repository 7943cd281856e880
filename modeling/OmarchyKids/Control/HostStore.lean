import OmarchyKids.Control.HostRegistry
import OmarchyKids.Lib.Runs

/-!
# OmarchyKids.Control.HostStore

The host registry and its file over whole histories: as long as every write completes,
memory and file are one insertion-ordered map from names to entries (`run_agrees`). A
write that does not complete, or that the polling timer reads in the middle, is another
matter: `save` writes in place, so there is always a moment at which the file holds
neither the old list nor the new one (`not_crashSafe`).
-/

namespace OmarchyKids

namespace HostRegistry

/-! ### Histories -/

/-- A registry object and the file it was constructed on. -/
structure Registry where
  /-- `none` while it does not exist. -/
  file : Option (List Char)
  hosts : List HostEntry

/-- A new object on the file. -/
def construct (toml : TomlText.Library) (file : Option (List Char)) : Registry where
  file := file
  hosts := load toml file

inductive Op
  | addHost (entry : HostEntry)
  /-- Another object on the same path. -/
  | reload

/-- One operation; its write completes. -/
def Registry.step (toml : TomlText.Library) (r : Registry) : Op → Registry
  | .addHost entry =>
      { file := some (saveText toml (addHost entry r.hosts)), hosts := addHost entry r.hosts }
  | .reload => construct toml r.file

def Registry.run (toml : TomlText.Library) (r : Registry) (ops : List Op) : Registry :=
  Runs.run (Registry.step toml) r ops

/-- The entries that were added, in their order. -/
def added : List Op → List HostEntry
  | [] => []
  | .addHost entry :: ops => entry :: added ops
  | .reload :: ops => added ops

/-- The registry as one insertion-ordered map, made of the entries it started with and
those added to it. -/
structure Registry.Agrees (toml : TomlText.Library) (old new : List HostEntry) (r : Registry) :
    Prop where
  nodup : (r.hosts.map HostEntry.name).Nodup
  /-- A name stands for what was last added under it, or for its original entry. -/
  lookup : ∀ name, r.hosts.find? (HostEntry.name · = name) =
    (new.reverse.find? (HostEntry.name · = name)).or (old.find? (HostEntry.name · = name))
  /-- Names stand in the order in which they first appeared. -/
  order : r.hosts.map HostEntry.name =
    (old.map HostEntry.name ++ new.map HostEntry.name).eraseDups
  /-- One more host changes no other entry. -/
  frame : ∀ entry, (r.step toml (.addHost entry)).hosts.filter (HostEntry.name · ≠ entry.name) =
    r.hosts.filter (HostEntry.name · ≠ entry.name)
  /-- The file gives back the list in memory. -/
  reload : load toml r.file = r.hosts

/-! #### What is loaded -/

theorem isInt_intOr {default : Int} (h : IsInt default) (v : Option TomlText.Value) :
    IsInt (intOr default v) := by
  unfold intOr
  split
  · split
    next hn => exact hn
    next => exact h
  · split
    next hn => exact hn
    next => exact h
  · exact h

/-- A port that was read is an `int`. -/
theorem isInt_of_mem_load {toml : TomlText.Library} {file : Option (List Char)} {h : HostEntry}
    (hmem : h ∈ load toml file) : IsInt h.sshPort := by
  have hentries : ∀ root, h ∈ entriesOf root → IsInt h.sshPort := by
    intro root hroot
    rw [entriesOf] at hroot
    split at hroot
    · obtain ⟨elem, -, helem⟩ := List.mem_filterMap.mp hroot
      cases elem with
      | table t =>
          obtain rfl := Option.some.inj helem
          exact isInt_intOr (by decide) _
      | string s => cases helem
      | integer n => cases helem
      | array elems => cases helem
      | other asInt => cases helem
    · cases hroot
  unfold load at hmem
  split at hmem
  · cases hmem
  · split at hmem
    · cases hmem
    · exact hentries _ hmem

/-- What was saved is loaded. -/
theorem load_saveText {toml : TomlText.Library} (htoml : toml.RoundTrips "hosts")
    {hosts : List HostEntry} (hne : hosts ≠ []) (hports : ∀ h ∈ hosts, IsInt h.sshPort) :
    load toml (some (saveText toml hosts)) = hosts := by
  have hflat : ∀ t ∈ hosts.map tableOf, TomlText.Flat t := by
    intro t ht
    obtain ⟨h, hmem, rfl⟩ := List.mem_map.mp ht
    exact flat_tableOf (hports h hmem)
  have hparse := htoml.parse_render (by simpa using hne) hflat
  have hentries : (hosts.map tableOf).map entryOf = hosts := by
    rw [List.map_map]
    exact (List.map_congr_left fun h hmem => entryOf_tableOf (hports h hmem)).trans (List.map_id _)
  unfold load
  simp only [saveText_eq, hparse, entriesOf_tables, hentries]

/-! #### Whole histories -/

/-- Between two operations: the file says what memory says, and every port is an `int`. -/
structure Registry.Saved (toml : TomlText.Library) (r : Registry) : Prop where
  load_eq : load toml r.file = r.hosts
  ports : ∀ h ∈ r.hosts, IsInt h.sshPort

theorem saved_construct (toml : TomlText.Library) (file : Option (List Char)) :
    (construct toml file).Saved toml where
  load_eq := rfl
  ports _ hmem := isInt_of_mem_load hmem

theorem addHost_ne_nil (entry : HostEntry) (hosts : List HostEntry) : addHost entry hosts ≠ [] :=
  List.ne_nil_of_mem (KeyedList.mem_put (.inl rfl))

/-- A new or a replaced entry has the new port, the others have theirs. -/
theorem ports_addHost {entry : HostEntry} {hosts : List HostEntry} (hport : IsInt entry.sshPort)
    (hports : ∀ h ∈ hosts, IsInt h.sshPort) : ∀ h ∈ addHost entry hosts, IsInt h.sshPort := by
  induction hosts with
  | nil =>
      intro h hmem
      rw [List.mem_singleton.mp hmem]
      exact hport
  | cons first rest ih =>
      obtain ⟨hfirst, hrest⟩ := List.forall_mem_cons.mp hports
      rw [addHost, KeyedList.put]
      split
      · exact List.forall_mem_cons.mpr ⟨hport, hrest⟩
      · exact List.forall_mem_cons.mpr ⟨hfirst, ih hrest⟩

theorem saved_step {toml : TomlText.Library} (htoml : toml.RoundTrips "hosts") {r : Registry}
    (h : r.Saved toml) {op : Op} (hports : ∀ entry ∈ added [op], IsInt entry.sshPort) :
    (r.step toml op).Saved toml ∧
      (r.step toml op).hosts = KeyedList.putAll HostEntry.name (added [op]) r.hosts := by
  cases op with
  | addHost entry =>
      have hports' := ports_addHost (hports entry List.mem_cons_self) h.ports
      exact ⟨⟨load_saveText htoml (addHost_ne_nil entry r.hosts) hports', hports'⟩, rfl⟩
  | reload => exact ⟨saved_construct toml r.file, h.load_eq⟩

theorem added_append (ops ops' : List Op) : added (ops ++ ops') = added ops ++ added ops' := by
  induction ops with
  | nil => rfl
  | cons op ops ih =>
      cases op with
      | addHost entry => exact congrArg (entry :: ·) ih
      | reload => exact ih

theorem saved_run {toml : TomlText.Library} (htoml : toml.RoundTrips "hosts") {r : Registry}
    (h : r.Saved toml) (ops : List Op) :
    (∀ entry ∈ added ops, IsInt entry.sshPort) → (r.run toml ops).Saved toml ∧
      (r.run toml ops).hosts = KeyedList.putAll HostEntry.name (added ops) r.hosts := by
  refine Runs.run_history (I := fun past (now : Registry) =>
    (∀ entry ∈ added past, IsInt entry.sshPort) → now.Saved toml ∧
      now.hosts = KeyedList.putAll HostEntry.name (added past) r.hosts)
    (fun _ => ⟨h, rfl⟩) ?_ ops
  intro past now op ih hports
  rw [added_append, List.forall_mem_append] at hports
  obtain ⟨hnow, hhosts⟩ := ih hports.1
  obtain ⟨hnext, hstep⟩ := saved_step htoml hnow hports.2
  refine ⟨hnext, ?_⟩
  rw [hstep, hhosts, added_append]
  exact (List.foldl_append).symm

/-- After any history of additions and reloads the registry is the map that the entries
of the file and the added ones make up, and its file holds it. -/
theorem run_agrees {toml : TomlText.Library} (htoml : toml.RoundTrips "hosts")
    (file : Option (List Char)) (hnodup : ((load toml file).map HostEntry.name).Nodup)
    (ops : List Op) (hports : ∀ entry ∈ added ops, IsInt entry.sshPort) :
    ((construct toml file).run toml ops).Agrees toml (load toml file) (added ops) := by
  obtain ⟨hsaved, hhosts⟩ := saved_run htoml (saved_construct toml file) ops hports
  have hstart : (construct toml file).hosts = load toml file := rfl
  rw [hstart] at hhosts
  exact {
    nodup := hhosts ▸ KeyedList.nodup_putAll _ hnodup
    lookup := fun name => hhosts ▸ KeyedList.find?_putAll _ _ name
    order := hhosts ▸ KeyedList.map_putAll_key _ hnodup
    frame := fun entry => KeyedList.filter_put entry _
    reload := hsaved.load_eq }

/-- Two children and a new address for the first, on a file that does not exist yet. -/
theorem run_agrees_sample :
    ((construct (TomlText.linewise "hosts") none).run (TomlText.linewise "hosts")
        [.addHost { name := "Anna" }, .addHost { name := "Ben" }, .reload,
          .addHost { name := "Anna", hostname := "10.0.0.7" }]).Agrees (TomlText.linewise "hosts")
      [] [{ name := "Anna" }, { name := "Ben" }, { name := "Anna", hostname := "10.0.0.7" }] :=
  run_agrees (TomlText.linewise_lawful bareKey_hosts).toRoundTrips none List.nodup_nil
    [.addHost { name := "Anna" }, .addHost { name := "Ben" }, .reload,
      .addHost { name := "Anna", hostname := "10.0.0.7" }] (by simp [added, IsInt])

/-! ### A write that does not complete -/

/-- Whatever part of the new text has reached the file, the next reader — the polling
timer, or the application after a crash — finds the complete old or the complete new
list. -/
def CrashSafe (toml : TomlText.Library) (hosts : List HostEntry) (entry : HostEntry) : Prop :=
  ∀ reached, reached <+: saveText toml (addHost entry hosts) →
    load toml (some reached) = hosts ∨ load toml (some reached) = addHost entry hosts

/-- A file that was truncated and not written yet. -/
theorem load_truncated {toml : TomlText.Library} (htoml : toml.Lawful "hosts") :
    load toml (some []) = [] := by
  unfold load
  simp only [htoml.parse_nil]
  rfl

/-- A file that ends behind some of the tables' keys. -/
theorem load_tables {toml : TomlText.Library} (htoml : toml.Lawful "hosts") {t : TomlText.Table}
    (hflat : TomlText.Flat t) :
    load toml (some (toml.render (TomlText.tables "hosts" [t]))) = [entryOf t] := by
  have hparse := htoml.parse_render (List.cons_ne_nil t []) (by simpa using hflat)
  unfold load
  simp only [hparse, entriesOf_tables, List.map_cons, List.map_nil]

/-- If the first addition were safe, a text that stops behind some key could only be
read as the new entry. -/
theorem entryOf_of_crashSafe {toml : TomlText.Library} (htoml : toml.Lawful "hosts")
    {entry : HostEntry} (hsafe : CrashSafe toml [] entry) {t : TomlText.Table}
    (hflat : TomlText.Flat t) (ht : toml.render (TomlText.tables "hosts" [t]) <+:
      toml.render (TomlText.tables "hosts" [tableOf entry])) : entryOf t = entry := by
  have htext : saveText toml (addHost entry []) =
      toml.render (TomlText.tables "hosts" [tableOf entry]) := saveText_eq toml [entry]
  have hread := hsafe (toml.render (TomlText.tables "hosts" [t])) (htext ▸ ht)
  rw [load_tables htoml hflat] at hread
  rcases hread with hold | hnew
  · cases hold
  · exact (List.cons.inj hnew).1

/-- The fields of a nameless host in front of its port. -/
def nameless : TomlText.Table := (tableOf {}).take 6

theorem tableOf_nameless (port : Int) :
    tableOf { sshPort := port } =
      nameless ++ [("ssh_port", .integer port)] ++ [("username", .string "")] := by
  simp [nameless, tableOf_eq]

theorem flat_nameless {port : Int} (hport : IsInt port) :
    TomlText.Flat (nameless ++ [("ssh_port", .integer port)] ++ [("username", .string "")]) :=
  tableOf_nameless port ▸ flat_tableOf hport

/-- The first host of a registry: there is a moment at which the file has an entry, but
another one. Behind the header it has a nameless host; and where a nameless host is what
was added, it has half of its port for a moment. -/
theorem not_crashSafe_first {toml : TomlText.Library} (htoml : toml.Lawful "hosts")
    {entry : HostEntry} (hport : IsInt entry.sshPort) : ¬CrashSafe toml [] entry := by
  intro hsafe
  have hheader : toml.render (TomlText.tables "hosts" [[]]) <+:
      toml.render (TomlText.tables "hosts" [tableOf entry]) :=
    htoml.render_append (flat_tableOf hport)
  obtain rfl : {} = entry := entryOf_of_crashSafe htoml hsafe TomlText.Flat.nil hheader
  have hwhole := @flat_nameless 22 (by decide)
  have hhalf := (@flat_nameless 2 (by decide)).of_append
  have hcut : toml.render (TomlText.tables "hosts" [nameless ++ [("ssh_port", .integer 2)]]) <+:
      toml.render (TomlText.tables "hosts" [tableOf {}]) :=
    (htoml.render_integer hhalf hwhole.of_append (by decide)).trans
      (tableOf_nameless 22 ▸ htoml.render_append hwhole)
  have hread := congrArg HostEntry.sshPort (entryOf_of_crashSafe htoml hsafe hhalf hcut)
  have hport2 : (entryOf (nameless ++ [("ssh_port", .integer 2)])).sshPort = 2 := by
    simp [nameless, tableOf_eq, entryOf, List.lookup, intOr, IsInt]
  rw [hport2] at hread
  exact absurd hread (by decide)

/-- No addition is safe: there is always a beginning of the new text from which neither
the old nor the new list is read. -/
theorem not_crashSafe {toml : TomlText.Library} (htoml : toml.Lawful "hosts")
    (hosts : List HostEntry) {entry : HostEntry} (hport : IsInt entry.sshPort) :
    ¬CrashSafe toml hosts entry := by
  cases hosts with
  | nil => exact not_crashSafe_first htoml hport
  | cons first rest =>
      intro hsafe
      rcases hsafe [] List.nil_prefix with hold | hnew
      · rw [load_truncated htoml] at hold
        cases hold
      · rw [load_truncated htoml] at hnew
        exact addHost_ne_nil entry _ hnew.symm

theorem not_crashSafe_sample :
    ¬CrashSafe (TomlText.linewise "hosts") [{ name := "Anna" }, { name := "Ben" }]
      { name := "Cem", sshPort := 2222 } :=
  not_crashSafe (TomlText.linewise_lawful bareKey_hosts) _ (by decide)

/-- A third child is added and the text stops behind the first: the file is well formed,
and one of the two children that were paired before is gone. -/
theorem addHost_cut_short :
    ∃ reached, reached <+: saveText (TomlText.linewise "hosts")
          (addHost { name := "Cem" } [{ name := "Anna" }, { name := "Ben" }]) ∧
      load (TomlText.linewise "hosts") (some reached) = [{ name := "Anna" }] ∧
      load (TomlText.linewise "hosts") (some reached) ≠ [{ name := "Anna" }, { name := "Ben" }] ∧
      load (TomlText.linewise "hosts") (some reached) ≠
        addHost { name := "Cem" } [{ name := "Anna" }, { name := "Ben" }] := by
  have hload : load (TomlText.linewise "hosts")
      (some (saveText (TomlText.linewise "hosts") [{ name := "Anna" }])) = [{ name := "Anna" }] :=
    load_saveText (TomlText.linewise_lawful bareKey_hosts).toRoundTrips (by simp) (by simp [IsInt])
  refine ⟨saveText (TomlText.linewise "hosts") [{ name := "Anna" }], by decide +kernel, hload,
    ?_, ?_⟩
  · rw [hload]
    decide
  · rw [hload]
    decide

end HostRegistry

end OmarchyKids
