import OmarchyKids.Lib.Scripts

/-!
# OmarchyKids.SetupWizard.FirstBoot

The first-boot wizard and the bootstrap it drives, as far as they leave something
behind. Each change is one step of a script; `useradd` is two, since the account is in
`/etc/passwd` before it is in its group. What the machine adds (which uid `useradd`
takes, which tiers are installed, what `serve` wrote) is a parameter.

The wizard runs as root.
-/

namespace OmarchyKids

namespace SetupWizard

/-! ### The system -/

/-- A line of `/etc/passwd`. -/
structure Account where
  name : String
  uid : Nat
  name_ne : name ≠ ""
  deriving DecidableEq

structure System where
  passwd : List Account
  /-- `UID_MIN` of `/etc/login.defs`. -/
  uidMin : Option Nat := none
  uidMax : Option Nat := none
  /-- The members of the group. -/
  wheel : List String := []
  /-- Passwords by account. -/
  shadow : String → Option String := fun _ => none
  /-- `/etc/sudoers.d/zz-omarchy-kids-getty-lockdown`. -/
  gettyLockdown : Option String := none
  /-- `screensaver.txt` by account. -/
  screensaver : String → Option String := fun _ => none
  /-- The tier each account was switched to. -/
  tier : String → Option String := fun _ => none
  /-- The lines of `authorized_keys` by account. -/
  authorizedKeys : String → Option (List String) := fun _ => none
  /-- UFW lets the pairing port through. -/
  pairingRule : Bool := false
  /-- Omarchy's unit that ends autologin at the next boot. -/
  autologinOnce : Bool := false
  childLanguage : Option String := none
  /-- `MARKER_FILE` is there. -/
  marker : Bool := false

/-- `id` knows the account. -/
def System.hasAccount (s : System) (name : String) : Bool :=
  s.passwd.any fun a => a.name == name

/-- A human account's uid. -/
def System.isHuman (s : System) (uid : Nat) : Bool :=
  s.uidMin.getD 1000 ≤ uid && uid ≤ s.uidMax.getD 60000

/-- What is not the wizard's. -/
structure Machine where
  /-- The uid that `useradd` gives the next account. -/
  allocateUid : System → Nat
  /-- The directory of `omarchy-kids-set-tier`, if it is on the `PATH`. -/
  setTierDir : Option String
  /-- The tiers beside it. -/
  tiers : List String
  /-- The banner of a name, by whichever command can render it. -/
  banner : String → String
  ufwActive : Bool

/-- What the parent answers. -/
structure Answers where
  childName : String
  tier : String
  language : String
  password : String
  /-- The prompt insists. -/
  password_ne : password ≠ ""

/-! ### Finding out -/

/-- The accounts in the human range. -/
def System.candidates (s : System) : List String :=
  (s.passwd.filter fun a => s.isHuman a.uid && a.name != "nobody").map Account.name

def detectChildUser (s : System) : Except String String :=
  match s.candidates with
  | [] => .error ("omarchy-kids-setup-wizard: no candidate child account found (UID " ++
      toString (s.uidMin.getD 1000) ++ "-" ++ toString (s.uidMax.getD 60000) ++
      ") — expected Omarchy's own first-boot to have created exactly one already")
  | [name] => .ok name
  | names => .error ("omarchy-kids-setup-wizard: found more than one candidate child account, " ++
      "refusing to guess: " ++ "\n".intercalate names)

def discoverTiers (m : Machine) : Except String (List String) :=
  match m.setTierDir with
  | none => .error "omarchy-kids-setup-wizard: omarchy-kids-set-tier not found on PATH"
  | some dir =>
      if m.tiers = [] then
        .error ("omarchy-kids-setup-wizard: no tiers found next to omarchy-kids-set-tier (" ++
          dir ++ ")")
      else .ok m.tiers

/-! ### The bootstrap -/

/-- `OMARCHY_KIDS_ADMIN_USER_DEFAULT`. -/
def adminUser : String := "omarchy-kids-parent"

/-- The first half of `useradd`. -/
def enterAccount (m : Machine) (s : System) : System :=
  { s with passwd := s.passwd ++ [⟨adminUser, m.allocateUid s, by decide⟩] }

/-- The other half of `useradd -G wheel`, and `usermod -aG wheel`. -/
def joinWheel (name : String) (s : System) : System :=
  { s with wheel := if name ∈ s.wheel then s.wheel else s.wheel ++ [name] }

def chpasswd (name password : String) (s : System) : System :=
  { s with shadow := Function.update s.shadow name (some password) }

/-- `gpasswd -d`. -/
def leaveWheel (name : String) (s : System) : System :=
  { s with wheel := s.wheel.filter (· ≠ name) }

def createParentAdminAccount (m : Machine) (child password : String) : Script System :=
  .block [
    .choose (fun s => !s.hasAccount adminUser)
      (.block [.step (enterAccount m), .step (joinWheel adminUser)])
      (.choose (fun s => adminUser ∉ s.wheel) (.step (joinWheel adminUser)) .skip),
    .step (chpasswd adminUser password),
    .choose (fun s => child ∈ s.wheel) (.step (leaveWheel child)) .skip]

/-- The units whose masking the child may ask for. -/
def gettyUnits : String :=
  "getty@tty2.service getty@tty3.service getty@tty4.service getty@tty5.service getty@tty6.service"

/-- `install` of the checked sudoers file. -/
def installGettyLockdown (child : String) (s : System) : System :=
  { s with gettyLockdown := some (
    child ++ " ALL=(root) NOPASSWD: /usr/bin/systemctl mask --now " ++ gettyUnits ++ "\n" ++
    child ++ " ALL=(root) NOPASSWD: /usr/bin/systemctl unmask " ++ gettyUnits ++ "\n") }

def grantGettyLockdownSudo (child : String) : Script System := .step (installGettyLockdown child)

def renderNameBanner (m : Machine) (child childName : String) (s : System) : System :=
  { s with screensaver := Function.update s.screensaver child (some (m.banner childName)) }

/-- `omarchy-kids-set-tier`, run as the child. -/
def setTier (child tier : String) (s : System) : System :=
  { s with tier := Function.update s.tier child (some tier) }

def applyBrandingAndTier (m : Machine) (child childName tier : String) : Script System :=
  .block [.step (renderNameBanner m child childName), .step (setTier child tier)]

/-- More lines in `authorized_keys`, which is there then. -/
def appendKeys (name : String) (lines : List String) (s : System) : System :=
  let present := (s.authorizedKeys name).getD []
  { s with authorizedKeys := Function.update s.authorizedKeys name (some (present ++ lines)) }

/-- An empty `authorized_keys`, if there is none. -/
def prepareAgentSshDir (child : String) : Script System :=
  .choose (fun s => (s.authorizedKeys child).isNone)
    (.step (appendKeys child [])) .skip

def usage : String :=
  "Usage: omarchy-kids-bootstrap --child-user <user> --child-name \"<name>\" --tier <tier>\n" ++
  "                               [--theme <theme-id>] [--admin-user <name>]\n" ++
  "                               [--admin-password <password>]\n"

def bootstrap (m : Machine) (child : String) (a : Answers) : Script System :=
  .block [
    createParentAdminAccount m child a.password,
    grantGettyLockdownSudo child,
    applyBrandingAndTier m child a.childName a.tier,
    prepareAgentSshDir child]

/-! ### The wizard -/

def setPairingRule (present : Bool) (s : System) : System := { s with pairingRule := present }

/-- The pairing window. However `serve` ends, the wizard goes on; `paired` is what it
wrote. -/
def runPairing (m : Machine) (paired : List String) (child : String) : Script System :=
  .block [
    .choose (fun _ => m.ufwActive) (.step (setPairingRule true)) .skip,
    .step (appendKeys child paired),
    .choose (fun _ => m.ufwActive) (.step (setPairingRule false)) .skip]

def removeAutologinOnce (s : System) : System := { s with autologinOnce := false }

def disableAutologinOnceCleanup : Script System := .step removeAutologinOnce

def writeLanguage (language : String) (s : System) : System :=
  { s with childLanguage := some language }

def writeMarker (s : System) : System := { s with marker := true }

/-- Everything from the bootstrap on. -/
def setUp (m : Machine) (paired : List String) (child : String) (a : Answers) : Script System :=
  .block [
    bootstrap m child a,
    runPairing m paired child,
    disableAutologinOnceCleanup,
    .step (writeLanguage a.language),
    .step writeMarker]

/-- A run in which every command succeeds. -/
structure Completed where
  /-- The account that was taken for the child's; none if there was nothing to do. -/
  child : Option String
  script : Script System

def wizard (m : Machine) (paired : List String) (a : Answers) (s : System) :
    Except String Completed :=
  if s.marker then .ok ⟨none, .skip⟩
  else
    match detectChildUser s with
    | .error e => .error e
    | .ok child =>
        match discoverTiers m with
        | .error e => .error e
        | .ok _ =>
            if child = "" ∨ a.childName = "" ∨ a.tier = "" then .error usage
            else if !s.hasAccount child then
              .error ("omarchy-kids-bootstrap: no such user '" ++ child ++
                "' — expected the account Omarchy's own first-boot already created")
            else .ok ⟨some child, setUp m paired child a⟩

end SetupWizard

end OmarchyKids
