import OmarchyKids.SetupWizard.FirstBoot

/-!
# OmarchyKids.SetupWizard.Resume

What a second run of the first-boot wizard makes of a system that a first run, cut off
somewhere, has left behind.

Every step takes what it finds into account, except the very first question: which
account is the child's? The answer is "the only one in the human range", and as soon as
`useradd` has entered the parent account there are two. So the wizard can be repeated
only as long as nothing has happened yet, or where the parent account was there before
(`repeats_iff`).
-/

namespace OmarchyKids

namespace SetupWizard

/-- Accounts, members of the group, and the marker. -/
def System.topology (s : System) : List Account × List String × Bool :=
  (s.passwd, s.wheel, s.marker)

/-- Cut off after `k` changes and run again to its end, the wizard takes the same account
for the child's and ends with the same accounts, members and marker. -/
def Repeats (m : Machine) (paired : List String) (a : Answers) (s : System) (first : Completed)
    (k : Nat) : Prop :=
  ∃ second, wizard m paired a (first.script.cut k s) = .ok second ∧
    second.child = first.child ∧
    (second.script.final (first.script.cut k s)).topology = (first.script.final s).topology

/-! ### When a run completes -/

/-- What the wizard checks before it changes anything. -/
structure Ready (m : Machine) (a : Answers) (s : System) (child : String) : Prop where
  candidates : s.candidates = [child]
  tiers : ∃ tiers, discoverTiers m = .ok tiers
  named : ¬(child = "" ∨ a.childName = "" ∨ a.tier = "")
  known : s.hasAccount child = true

theorem detectChildUser_eq_ok {s : System} {child : String} :
    detectChildUser s = .ok child ↔ s.candidates = [child] := by
  rw [detectChildUser]
  rcases s.candidates with _ | ⟨name, _ | ⟨other, names⟩⟩ <;> simp

theorem wizard_eq_ok {m : Machine} {paired : List String} {a : Answers} {s : System}
    {c : Completed} (hs : s.marker = false) :
    wizard m paired a s = .ok c ↔
      ∃ child, Ready m a s child ∧ c = ⟨some child, setUp m paired child a⟩ := by
  rw [wizard, if_neg (by simp [hs])]
  constructor
  · intro h
    cases hchild : detectChildUser s with
    | error e =>
        rw [hchild] at h
        cases h
    | ok child =>
        cases htiers : discoverTiers m with
        | error e =>
            rw [hchild, htiers] at h
            cases h
        | ok tiers =>
            rw [hchild, htiers] at h
            dsimp only at h
            split at h
            next => cases h
            next hnamed =>
              split at h
              next => cases h
              next hknown =>
                refine ⟨child, ⟨detectChildUser_eq_ok.mp hchild, ⟨tiers, htiers⟩, hnamed, ?_⟩,
                  (Except.ok.inj h).symm⟩
                simpa using hknown
  · intro h
    obtain ⟨child, hready, rfl⟩ := h
    obtain ⟨tiers, htiers⟩ := hready.tiers
    simp only [detectChildUser_eq_ok.mpr hready.candidates, htiers, hready.named, hready.known,
      if_false, Bool.not_true, Bool.false_eq_true]

/-! ### What the steps leave alone -/

/-- The part of the system that the wizard's first question and the claim on its result
depend on. -/
def System.core (s : System) : System where
  passwd := s.passwd
  uidMin := s.uidMin
  uidMax := s.uidMax
  wheel := s.wheel
  marker := s.marker

/-- Whatever is true of that part stays true. -/
def LeavesCore (p : Script System) : Prop := ∀ P : System → Prop, Script.Keeps (fun s => P s.core) p

theorem LeavesCore.final {p : Script System} (h : LeavesCore p) (s : System) :
    (p.final s).core = s.core :=
  (h (· = s.core)).final rfl

theorem leavesCore_step {f : System → System} (h : ∀ s, (f s).core = s.core) :
    LeavesCore (.step f) := by
  intro P
  refine Script.keeps_step fun s hs => ?_
  rw [h s]
  exact hs

theorem leavesCore_choose {c : System → Bool} {p q : Script System} (hp : LeavesCore p)
    (hq : LeavesCore q) : LeavesCore (.choose c p q) :=
  fun P => Script.keeps_either (hp P) (hq P)

theorem leavesCore_skip : LeavesCore .skip := fun _ => Script.keeps_skip

/-- Several scripts in a row. -/
theorem leavesCore_block {ps : List (Script System)} (h : ∀ p ∈ ps, LeavesCore p) :
    LeavesCore (.block ps) :=
  fun P => Script.keeps_block fun p hp => h p hp P

theorem leavesCore_appendKeys (name : String) (lines : List String) :
    LeavesCore (.step (appendKeys name lines)) :=
  leavesCore_step fun _ => rfl

theorem leavesCore_grantGettyLockdownSudo (child : String) :
    LeavesCore (grantGettyLockdownSudo child) :=
  leavesCore_step fun _ => rfl

theorem leavesCore_applyBrandingAndTier (m : Machine) (child childName tier : String) :
    LeavesCore (applyBrandingAndTier m child childName tier) := by
  have hbanner : LeavesCore (.step (renderNameBanner m child childName)) :=
    leavesCore_step fun _ => rfl
  have htier : LeavesCore (.step (setTier child tier)) := leavesCore_step fun _ => rfl
  exact leavesCore_block (by simp [hbanner, htier])

theorem leavesCore_prepareAgentSshDir (child : String) : LeavesCore (prepareAgentSshDir child) :=
  leavesCore_choose (leavesCore_appendKeys child []) leavesCore_skip

theorem leavesCore_runPairing (m : Machine) (paired : List String) (child : String) :
    LeavesCore (runPairing m paired child) := by
  have hrule : ∀ present, LeavesCore (.choose (fun _ => m.ufwActive)
      (.step (setPairingRule present)) .skip) :=
    fun _ => leavesCore_choose (leavesCore_step fun _ => rfl) leavesCore_skip
  exact leavesCore_block (by simp [hrule, leavesCore_appendKeys])

/-- What follows the accounts, up to the marker. -/
def afterAccounts (m : Machine) (paired : List String) (child : String) (a : Answers) :
    Script System :=
  .block [grantGettyLockdownSudo child, applyBrandingAndTier m child a.childName a.tier,
    prepareAgentSshDir child, runPairing m paired child, disableAutologinOnceCleanup,
    .step (writeLanguage a.language)]

theorem leavesCore_afterAccounts (m : Machine) (paired : List String) (child : String)
    (a : Answers) : LeavesCore (afterAccounts m paired child a) := by
  have hcleanup : LeavesCore disableAutologinOnceCleanup := leavesCore_step fun _ => rfl
  have hlanguage : LeavesCore (.step (writeLanguage a.language)) := leavesCore_step fun _ => rfl
  refine leavesCore_block ?_
  simp [leavesCore_grantGettyLockdownSudo, leavesCore_applyBrandingAndTier,
    leavesCore_prepareAgentSshDir, leavesCore_runPairing, hcleanup, hlanguage]

/-- Accounts first, the marker last. -/
theorem setUp_eq (m : Machine) (paired : List String) (child : String) (a : Answers) :
    setUp m paired child a =
      (createParentAdminAccount m child a.password).andThen
        ((afterAccounts m paired child a).andThen (.step writeMarker)) := by
  simp only [setUp, bootstrap, afterAccounts, Script.block, Script.andThen_assoc,
    Script.andThen_skip]

/-! ### Where a run ends -/

/-- The members once the parent is one and the child is none. -/
def settledWheel (child : String) (wheel : List String) : List String :=
  (if adminUser ∈ wheel then wheel else wheel ++ [adminUser]).filter (· ≠ child)

/-- The accounts once the parent has one. -/
def settledPasswd (m : Machine) (s : System) : List Account :=
  if s.hasAccount adminUser then s.passwd else (enterAccount m s).passwd

theorem filter_of_notMem {name : String} {wheel : List String} (h : name ∉ wheel) :
    wheel.filter (· ≠ name) = wheel := by
  rw [List.filter_eq_self]
  intro other hother
  exact decide_eq_true fun heq => h (heq ▸ hother)

/-- Where the child is a member it leaves, and where it is none nothing happens. -/
theorem topology_leaveWheel (child : String) (s : System) :
    ((Script.choose (fun s => child ∈ s.wheel) (.step (leaveWheel child)) .skip).final s).topology =
      (s.passwd, s.wheel.filter (· ≠ child), s.marker) := by
  rw [Script.final_choose]
  by_cases h : child ∈ s.wheel
  · rw [if_pos (decide_eq_true h), Script.final_step]
    rfl
  · rw [if_neg (by simpa using h), Script.final_skip, filter_of_notMem h]
    rfl

theorem final_createParentAdminAccount (m : Machine) (child password : String) (s : System) :
    ((createParentAdminAccount m child password).final s).topology =
      (settledPasswd m s, settledWheel child s.wheel, s.marker) := by
  simp only [createParentAdminAccount, Script.final_block_cons, Script.final_block_nil,
    Script.final_step]
  rw [topology_leaveWheel]
  simp only [Script.final_choose, Script.final_block_cons, Script.final_block_nil,
    Script.final_step, Script.final_skip, chpasswd, settledPasswd, settledWheel]
  by_cases hadmin : s.hasAccount adminUser = true <;> by_cases hwheel : adminUser ∈ s.wheel <;>
    simp [hadmin, hwheel, joinWheel, enterAccount]

theorem final_setUp (m : Machine) (paired : List String) (child : String) (a : Answers)
    (s : System) :
    ((setUp m paired child a).final s).topology =
      (settledPasswd m s, settledWheel child s.wheel, true) := by
  have hcreate := final_createParentAdminAccount m child a.password s
  rw [setUp_eq, Script.final_andThen, Script.final_andThen, Script.final_step]
  generalize (createParentAdminAccount m child a.password).final s = t at hcreate ⊢
  have hcore := (leavesCore_afterAccounts m paired child a).final t
  have hpasswd : t.passwd = settledPasswd m s := congrArg Prod.fst hcreate
  have hwheel : t.wheel = settledWheel child s.wheel :=
    congrArg (fun topology => topology.2.1) hcreate
  have hpasswd' : ((afterAccounts m paired child a).final t).passwd = t.passwd := by
    have hfield := congrArg System.passwd hcore
    exact hfield
  have hwheel' : ((afterAccounts m paired child a).final t).wheel = t.wheel := by
    have hfield := congrArg System.wheel hcore
    exact hfield
  rw [← hpasswd, ← hwheel, ← hpasswd', ← hwheel']
  rfl

/-! ### Where a run is cut off -/

theorem settledWheel_joinWheel (child : String) (s : System) :
    settledWheel child (joinWheel adminUser s).wheel = settledWheel child s.wheel := by
  rw [settledWheel, settledWheel, joinWheel]
  by_cases h : adminUser ∈ s.wheel <;> simp [h]

theorem settledWheel_leaveWheel (child : String) (s : System) :
    settledWheel child (leaveWheel child s).wheel = settledWheel child s.wheel := by
  rw [settledWheel, settledWheel, leaveWheel]
  by_cases hchild : adminUser = child
  · by_cases h : child ∈ s.wheel <;> simp [hchild, h, List.filter_filter]
  · by_cases h : adminUser ∈ s.wheel <;> simp [h, hchild, List.filter_filter]

/-- What a second run finds if the parent account was there before the first: the same
accounts, and members that settle in the same way. -/
structure Settles (child : String) (s t : System) : Prop where
  passwd : t.passwd = s.passwd
  uidMin : t.uidMin = s.uidMin
  uidMax : t.uidMax = s.uidMax
  wheel : settledWheel child t.wheel = settledWheel child s.wheel

theorem settles_core {child : String} {s t : System} : Settles child s t.core ↔ Settles child s t :=
  ⟨fun h => ⟨h.passwd, h.uidMin, h.uidMax, h.wheel⟩,
    fun h => ⟨h.passwd, h.uidMin, h.uidMax, h.wheel⟩⟩

theorem keeps_settles_create (m : Machine) {child : String} (password : String) {s : System}
    (hadmin : s.hasAccount adminUser = true) :
    Script.Keeps (Settles child s) (createParentAdminAccount m child password) := by
  have hjoin : Script.Keeps (Settles child s) (.step (joinWheel adminUser)) :=
    Script.keeps_step fun t ht =>
      ⟨ht.passwd, ht.uidMin, ht.uidMax, (settledWheel_joinWheel child t).trans ht.wheel⟩
  have hleave : Script.Keeps (Settles child s) (.step (leaveWheel child)) :=
    Script.keeps_step fun t ht =>
      ⟨ht.passwd, ht.uidMin, ht.uidMax, (settledWheel_leaveWheel child t).trans ht.wheel⟩
  have hpassword : Script.Keeps (Settles child s) (.step (chpasswd adminUser password)) :=
    Script.keeps_step fun t ht => ⟨ht.passwd, ht.uidMin, ht.uidMax, ht.wheel⟩
  -- the branch of `useradd` is never taken
  have henrol : Script.Keeps (Settles child s)
      (.choose (fun s => !s.hasAccount adminUser)
        (.block [.step (enterAccount m), .step (joinWheel adminUser)])
        (.choose (fun s => adminUser ∉ s.wheel) (.step (joinWheel adminUser)) .skip)) := by
    refine Script.keeps_choose (fun t ht hc => ?_) fun t ht _ => ?_
    · rw [System.hasAccount, ht.passwd, ← System.hasAccount, hadmin] at hc
      cases hc
    · exact Script.keeps_optional hjoin t ht
  refine Script.keeps_block ?_
  simp only [List.forall_mem_cons]
  exact ⟨henrol, hpassword, Script.keeps_optional hleave, fun _ h => absurd h List.not_mem_nil⟩

theorem keeps_settles (m : Machine) (paired : List String) {child : String} (a : Answers)
    {s : System} (hadmin : s.hasAccount adminUser = true) :
    Script.Keeps (Settles child s) (setUp m paired child a) := by
  rw [setUp_eq]
  refine Script.keeps_andThen (keeps_settles_create m a.password hadmin)
    (Script.keeps_andThen ?_ (Script.keeps_step fun t ht => ?_))
  · have hafter := leavesCore_afterAccounts m paired child a (Settles child s)
    simpa only [settles_core] using hafter
  · exact ⟨ht.passwd, ht.uidMin, ht.uidMax, ht.wheel⟩

/-- What a second run finds as soon as `useradd` has entered the parent account. -/
structure Entered (m : Machine) (s t : System) : Prop where
  passwd : t.passwd = (enterAccount m s).passwd
  uidMin : t.uidMin = s.uidMin
  uidMax : t.uidMax = s.uidMax

theorem entered_core {m : Machine} {s t : System} : Entered m s t.core ↔ Entered m s t :=
  ⟨fun h => ⟨h.passwd, h.uidMin, h.uidMax⟩, fun h => ⟨h.passwd, h.uidMin, h.uidMax⟩⟩

theorem enters_entered (m : Machine) (paired : List String) (child : String) (a : Answers)
    {s : System} (hadmin : s.hasAccount adminUser = false) :
    Script.Enters (Entered m s) (setUp m paired child a) s := by
  have hstep : ∀ f : System → System, (∀ t, (f t).passwd = t.passwd) →
      (∀ t, (f t).uidMin = t.uidMin) → (∀ t, (f t).uidMax = t.uidMax) →
      Script.Keeps (Entered m s) (.step f) := by
    intro f hpasswd hmin hmax
    refine Script.keeps_step fun t ht => ?_
    exact ⟨(hpasswd t).trans ht.passwd, (hmin t).trans ht.uidMin, (hmax t).trans ht.uidMax⟩
  have hjoin := hstep (joinWheel adminUser) (fun _ => rfl) (fun _ => rfl) fun _ => rfl
  have hleave := hstep (leaveWheel child) (fun _ => rfl) (fun _ => rfl) fun _ => rfl
  have hpassword := hstep (chpasswd adminUser a.password) (fun _ => rfl) (fun _ => rfl) fun _ => rfl
  have hmarker := hstep writeMarker (fun _ => rfl) (fun _ => rfl) fun _ => rfl
  have hfirst : Script.Enters (Entered m s) (.step (enterAccount m)) s :=
    Script.enters_step ⟨rfl, rfl, rfl⟩
  have hafter := leavesCore_afterAccounts m paired child a (Entered m s)
  simp only [entered_core] at hafter
  rw [setUp_eq]
  refine Script.enters_andThen (Script.enters_block (Script.enters_choose ?_ ?_) ?_)
    (Script.keeps_andThen hafter hmarker)
  · rw [hadmin, Bool.not_false]
  · exact Script.enters_block hfirst (by simp only [List.forall_mem_singleton]; exact hjoin)
  · simp only [List.forall_mem_cons]
    exact ⟨hpassword, Script.keeps_optional hleave, fun _ h => absurd h List.not_mem_nil⟩

/-! ### The second run -/

theorem candidates_congr {s t : System} (hpasswd : t.passwd = s.passwd)
    (hmin : t.uidMin = s.uidMin) (hmax : t.uidMax = s.uidMax) : t.candidates = s.candidates := by
  simp only [System.candidates, System.isHuman, hpasswd, hmin, hmax]

/-- The parent account is a second candidate. -/
theorem candidates_entered {m : Machine} {s t : System} (huid : s.isHuman (m.allocateUid s) = true)
    (h : Entered m s t) : t.candidates = s.candidates ++ [adminUser] := by
  have hname : (adminUser != "nobody") = true := by decide
  simp only [System.isHuman] at huid
  simp only [System.candidates, System.isHuman, h.passwd, h.uidMin, h.uidMax, enterAccount,
    List.filter_append, List.map_append]
  rw [List.filter_cons_of_pos (by rw [huid, hname]; rfl)]
  rfl

theorem hasAccount_congr {s t : System} (hpasswd : t.passwd = s.passwd) (name : String) :
    t.hasAccount name = s.hasAccount name := by
  rw [System.hasAccount, System.hasAccount, hpasswd]

/-- A system in which everything settles as before passes the same checks and ends in the
same way. -/
theorem repeats_of_settles {m : Machine} {paired paired' : List String} {a : Answers}
    {s : System} {child : String} (hready : Ready m a s child) {k : Nat}
    (hcut : ((setUp m paired child a).cut k s).marker = false)
    (hsettles : Settles child s ((setUp m paired child a).cut k s))
    (hpasswd : settledPasswd m ((setUp m paired child a).cut k s) = settledPasswd m s) :
    Repeats m paired' a s ⟨some child, setUp m paired child a⟩ k := by
  have hready' : Ready m a ((setUp m paired child a).cut k s) child :=
    { candidates := (candidates_congr hsettles.passwd hsettles.uidMin hsettles.uidMax).trans
        hready.candidates
      tiers := hready.tiers
      named := hready.named
      known := (hasAccount_congr hsettles.passwd child).trans hready.known }
  refine ⟨⟨some child, setUp m paired' child a⟩, (wizard_eq_ok hcut).mpr ⟨child, hready', rfl⟩,
    rfl, ?_⟩
  dsimp only
  rw [final_setUp, final_setUp, hpasswd, hsettles.wheel]

/-- A run that was cut off can be repeated exactly if it had not changed anything yet,
or if the parent account was there before it. -/
theorem repeats_iff {m : Machine} {paired paired' : List String} {a : Answers} {s : System}
    {first : Completed} (hs : s.marker = false) (hrun : wizard m paired a s = .ok first)
    (huid : s.isHuman (m.allocateUid s) = true) {k : Nat}
    (hcut : (first.script.cut k s).marker = false) :
    Repeats m paired' a s first k ↔ s.hasAccount adminUser = true ∨ k = 0 := by
  obtain ⟨child, hready, rfl⟩ := (wizard_eq_ok hs).mp hrun
  dsimp only at hcut
  constructor
  · intro hrepeats
    obtain ⟨second, hsecond, -, -⟩ := hrepeats
    by_contra hnot
    rw [not_or, Bool.not_eq_true] at hnot
    -- two candidates, where the second run needs one
    have hentered := (enters_entered m paired child a hnot.1).cut hnot.2
    obtain ⟨child', hready', -⟩ := (wizard_eq_ok hcut).mp hsecond
    have htwo := candidates_entered huid hentered
    rw [hready'.candidates, hready.candidates] at htwo
    exact absurd (congrArg List.length htwo) (by simp)
  · intro hcond
    rcases hcond with hadmin | rfl
    · have hsettles := (@keeps_settles m paired child a s hadmin).cut ⟨rfl, rfl, rfl, rfl⟩ k
      refine repeats_of_settles hready hcut hsettles ?_
      rw [settledPasswd, settledPasswd, hasAccount_congr hsettles.passwd, if_pos hadmin,
        if_pos hadmin, hsettles.passwd]
    · exact repeats_of_settles hready hcut ⟨rfl, rfl, rfl, rfl⟩ rfl

/-- The child's account, as Omarchy leaves it. -/
def freshSystem : System where
  passwd := [⟨"root", 0, by decide⟩, ⟨"nobody", 65534, by decide⟩, ⟨"fine", 1000, by decide⟩]
  wheel := ["fine"]
  autologinOnce := true

/-- The next free uid, and the tier that is built. -/
def arch : Machine where
  allocateUid _ := 1001
  setTierDir := some "/usr/share/omarchy-kids/tiers"
  tiers := ["mini"]
  banner name := name
  ufwActive := true

def someAnswers : Answers where
  childName := "Fine"
  tier := "mini"
  language := "de"
  password := "secret"
  password_ne := by decide

theorem wizard_freshSystem :
    wizard arch [] someAnswers freshSystem = .ok ⟨some "fine", setUp arch [] "fine" someAnswers⟩ :=
  (wizard_eq_ok rfl).mpr ⟨"fine", ⟨by decide, ⟨["mini"], rfl⟩, by decide, by decide⟩, rfl⟩

theorem repeats_iff_freshSystem :
    Repeats arch [] someAnswers freshSystem ⟨some "fine", setUp arch [] "fine" someAnswers⟩ 4 ↔
      freshSystem.hasAccount adminUser = true ∨ 4 = 0 :=
  repeats_iff rfl wizard_freshSystem (by decide) (by decide +kernel)

/-- The sudoers file could not be checked, say: account, membership and password of the
parent are there, the child has left the group, and the next run refuses to guess. -/
theorem not_repeats_freshSystem :
    wizard arch [] someAnswers freshSystem = .ok ⟨some "fine", setUp arch [] "fine" someAnswers⟩ ∧
      ((setUp arch [] "fine" someAnswers).cut 4 freshSystem).candidates =
        ["fine", "omarchy-kids-parent"] ∧
      ((setUp arch [] "fine" someAnswers).cut 4 freshSystem).marker = false ∧
      ¬Repeats arch [] someAnswers freshSystem
        ⟨some "fine", setUp arch [] "fine" someAnswers⟩ 4 := by
  have hmarker : ((setUp arch [] "fine" someAnswers).cut 4 freshSystem).marker = false := by
    decide +kernel
  have htwo : ((setUp arch [] "fine" someAnswers).cut 4 freshSystem).candidates =
      ["fine", "omarchy-kids-parent"] := by decide +kernel
  refine ⟨wizard_freshSystem, htwo, hmarker, ?_⟩
  rintro ⟨second, hsecond, -, -⟩
  obtain ⟨child, hready, -⟩ := (wizard_eq_ok hmarker).mp hsecond
  have hone := hready.candidates
  rw [htwo] at hone
  exact absurd (congrArg List.length hone) (by simp)

end SetupWizard

end OmarchyKids
