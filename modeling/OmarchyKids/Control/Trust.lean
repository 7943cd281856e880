import OmarchyKids.Control.PairingOutput
import OmarchyKids.Control.PinnedKey
import OmarchyKids.Pairing.Agreement

/-!
# OmarchyKids.Control.Trust

From the pairing on an attacker's network to the host key that `ssh` accepts.

Module `Pairing.Agreement` has what the child can rely on. This is the other direction:
whatever the parent is shown, the child has sent, in one connection of `serve` and for the
parent's own key (`Traced`). The dialog makes a host of it, and each later call pins the key
of that host; so an attacker who owns the network while the two are paired gains nothing for
any call after it.
-/

namespace OmarchyKids

namespace Pairing

variable {K : Type} {x : Crates K} {srv : Server} {cl : Client}

/-! ### Where a confirmation comes from -/

/-- The machine that serves the current connection. -/
def ServerPhase.machine : ServerPhase K → Option Machine
  | .awaitHello m | .awaitPayload m _ | .awaitAck m _ => some m
  | .idle | .returned => none

variable (srv cl) in
/-- `serve` has answered connections alone, and has sealed confirmations for the client's key
alone; the client's user has said yes to one of these. -/
structure Traced (events : List Event) (net : Network K) : Prop where
  machine : ∀ m, net.server.machine = some m → .connect m ∈ events
  confirms : ∀ key c, ⟨.serve, key, .confirm c⟩ ∈ net.sealed →
    ∃ m, .connect m ∈ events ∧ confirmFor srv m cl.pubkey = .ok c
  confirmed : ∀ c, net.confirmed = some c → ∃ key, ⟨.serve, key, .confirm c⟩ ∈ net.sealed

namespace Traced

variable {events : List Event} {net net' : Network K}

/-- An event that seals no confirmation. -/
theorem keep (h : Traced srv cl events net) (e : Event)
    (hmachine : ∀ m, net'.server.machine = some m → net.server.machine = some m ∨ e = .connect m)
    (hsealed : ∀ key c, ⟨.serve, key, .confirm c⟩ ∈ net'.sealed ↔
      ⟨.serve, key, .confirm c⟩ ∈ net.sealed)
    (hconfirmed : ∀ c, net'.confirmed = some c →
      net.confirmed = some c ∨ ∃ key, ⟨.serve, key, .confirm c⟩ ∈ net.sealed) :
    Traced srv cl (events ++ [e]) net' := by
  refine ⟨fun m hm => ?_, fun key c hc => ?_, fun c hc => ?_⟩
  · rcases hmachine m hm with hold | rfl
    · exact List.mem_append_left _ (h.machine m hold)
    · exact List.mem_append_right _ (List.mem_singleton_self _)
  · obtain ⟨m, hm, hconfirm⟩ := h.confirms key c ((hsealed key c).mp hc)
    exact ⟨m, List.mem_append_left _ hm, hconfirm⟩
  · rcases hconfirmed c hc with hold | ⟨key, hsent⟩
    · obtain ⟨key, hsent⟩ := h.confirmed c hold
      exact ⟨key, (hsealed key c).mpr hsent⟩
    · exact ⟨key, (hsealed key c).mpr hsent⟩

/-- The connection is given up, or the window closed. -/
theorem leave (h : Traced srv cl events net) (e : Event) {server : ServerPhase K}
    (hserver : server.machine = none) :
    Traced srv cl (events ++ [e]) { net with server := server } := by
  refine h.keep e (fun m hm => ?_) (fun _ _ => Iff.rfl) (fun _ hc => .inl hc)
  exact .inl ((Option.some_ne_none m (hm.symm.trans hserver)).elim)

theorem same (h : Traced srv cl events net) (e : Event) : Traced srv cl (events ++ [e]) net :=
  h.keep e (fun _ hm => .inl hm) (fun _ _ => Iff.rfl) (fun _ hc => .inl hc)

theorem toServer (h : Traced srv cl events net) (hsealing : Sealing cl net) {msg : Message}
    (hadm : Admissible x srv net (.toServer msg)) :
    Traced srv cl (events ++ [.toServer msg]) (net.toServer x srv msg) := by
  unfold Network.toServer
  cases hserver : net.server with
  | awaitHello m =>
      have hm := h.machine m (by rw [hserver]; rfl)
      dsimp only
      split
      · exact h.leave _ rfl
      · refine h.keep _ (fun m' hm' => ?_) (fun _ _ => Iff.rfl) (fun _ hc => .inl hc)
        exact .inl (by rw [hserver]; exact hm')
  | awaitPayload m key =>
      have hm := h.machine m (by rw [hserver]; rfl)
      simp only [Admissible, hserver] at hadm
      dsimp only
      split
      · exact h.leave _ rfl
      · rename_i s hnext
        obtain ⟨rfl, hpubkey, hconfirm, -⟩ := onPayload_eq_ok x srv hnext
        -- only the client can have sealed a public key under this key
        obtain ⟨author, hsealed⟩ := hadm.sealed x hpubkey
        obtain ⟨-, hown⟩ := hsealing.pubkey hsealed
        rw [hown] at hconfirm
        refine ⟨fun m' hm' => ?_, fun key' c hc => ?_, fun c hc => ?_⟩
        · obtain rfl := Option.some.inj hm'
          exact List.mem_append_left _ hm
        · rcases mem_snoc.mp hc with hold | hnew
          · obtain ⟨m', hm', hconfirm'⟩ := h.confirms key' c hold
            exact ⟨m', List.mem_append_left _ hm', hconfirm'⟩
          · cases hnew
            exact ⟨m, List.mem_append_left _ hm, hconfirm⟩
        · obtain ⟨key', hsent⟩ := h.confirmed c hc
          exact ⟨key', List.mem_append_left _ hsent⟩
  | awaitAck m s =>
      dsimp only
      split
      · exact h.leave _ rfl
      · refine h.keep _ (fun m' hm' => ?_) (fun _ _ => Iff.rfl) (fun _ hc => .inl hc)
        split at hm' <;> cases hm'
  | idle => exact h.same _
  | returned => exact h.same _

/-- What the client seals is no confirmation. -/
theorem toClient (h : Traced srv cl events net) (msg : Message) :
    Traced srv cl (events ++ [.toClient msg]) (net.toClient x cl msg) := by
  unfold Network.toClient
  split
  · split
    · exact h.keep _ (fun _ hm => .inl hm) (fun _ _ => Iff.rfl) (fun _ hc => .inl hc)
    · refine h.keep _ (fun _ hm => .inl hm) (fun _ _ => ?_) (fun _ hc => .inl hc)
      simp
  · split
    · exact h.keep _ (fun _ hm => .inl hm) (fun _ _ => Iff.rfl) (fun _ hc => .inl hc)
    · exact h.keep _ (fun _ hm => .inl hm) (fun _ _ => Iff.rfl) (fun _ hc => .inl hc)
  · exact h.same _

theorem answer (h : Traced srv cl events net) (hsealing : Sealing cl net) (line : String) :
    Traced srv cl (events ++ [.answer line]) (net.answer x cl line) := by
  unfold Network.answer
  split
  next key c hclient =>
    split
    · exact h.keep _ (fun _ hm => .inl hm) (fun _ _ => Iff.rfl) (fun _ hc => .inl hc)
    · refine h.keep _ (fun _ hm => .inl hm) (fun _ _ => by simp) (fun c' hc' => ?_)
      dsimp only at hc'
      split at hc'
      · obtain rfl := Option.some.inj hc'
        exact .inr ⟨key, (hsealing.shown key c hclient).2.2⟩
      · exact .inl hc'
  next => exact h.same _

theorem step (h : Traced srv cl events net) (hsealing : Sealing cl net) {e : Event}
    (hadm : Admissible x srv net e) :
    Traced srv cl (events ++ [e]) (networkStep x srv cl net e) := by
  cases e with
  | connect m =>
      unfold networkStep
      dsimp only
      split
      · refine h.keep _ (fun m' hm' => ?_) (fun _ _ => Iff.rfl) (fun _ hc => .inl hc)
        obtain rfl := Option.some.inj hm'
        exact .inr rfl
      · exact h.same _
  | toServer msg => exact h.toServer hsealing hadm
  | serverFails =>
      unfold networkStep
      dsimp only
      split
      · exact h.same _
      · exact h.leave _ rfl
  | deadline =>
      unfold networkStep
      dsimp only
      split
      · exact h.leave _ rfl
      · exact h.same _
  | toClient msg => exact h.toClient msg
  | answer line => exact h.answer hsealing line
  | clientFails => exact h.keep _ (fun _ hm => .inl hm) (fun _ _ => Iff.rfl) (fun _ hc => .inl hc)

end Traced

theorem traced_run (file : KeysFile) {events : List Event}
    (h : Runs.Along (networkStep x srv cl) (Admissible x srv) { authorizedKeys := file } events) :
    Traced srv cl events
      (Runs.run (networkStep x srv cl) { authorizedKeys := file } events) := by
  induction events using List.reverseRecOn with
  | nil =>
      exact ⟨fun _ hm => (by cases hm), fun _ _ hc => (by cases hc), fun _ hc => (by cases hc)⟩
  | append_singleton events e ih =>
      obtain ⟨hbefore, hadm⟩ := (Runs.along_concat _ _ _).mp h
      rw [Runs.run_concat]
      exact (ih hbefore).step (run_inv file hbefore).sealing hadm

/-- The host key of a confirmation is one of the machine's own. -/
theorem confirmFor_own {m : Machine} {pubkey : String} {c : Confirm}
    (h : confirmFor srv m pubkey = .ok c) :
    c.hostname = srv.hostname ∧ c.sshPort = srv.sshPort ∧
      ∃ path ∈ hostKeyCandidates, ∃ text, m.hostKeyFile path = .contents text ∧
        c.sshHostPublicKey = String.ofList (Text.trim text.toList) := by
  obtain ⟨fingerprint, -, h⟩ := bind_eq_ok.mp h
  obtain ⟨username, -, h⟩ := bind_eq_ok.mp h
  obtain ⟨hostKey, hread, h⟩ := bind_eq_ok.mp h
  cases h
  refine ⟨rfl, rfl, ?_⟩
  revert hread
  generalize hostKeyCandidates = paths
  induction paths with
  | nil => exact nofun
  | cons path rest ih =>
      intro hread
      rw [readHostPublicKey] at hread
      split at hread
      · next text htext =>
          cases hread
          exact ⟨path, List.mem_cons_self, text, htext, rfl⟩
      · obtain ⟨path', hpath, found⟩ := ih hread
        exact ⟨path', List.mem_cons_of_mem _ hpath, found⟩
      · cases hread

end Pairing

/-! ### The pin -/

namespace AgentClient

variable {Key : Type*} (parseKey : List UInt8 → Option Key)

/-- The text of a key, on one line, no beginning of which is taken for another key. -/
structure KeyText (text : String) : Prop where
  ne : text ≠ ""
  line : '\n' ∉ text.toList
  whole : ∀ n key,
    KnownHosts.keyOf parseKey (KnownHosts.content ((Utf8.bytes text).take n)) = some key →
      KnownHosts.keyOf parseKey
        (KnownHosts.content (Lines.first 10 (Utf8.bytes text))) = some key

/-- With a temporary file, such a key is all that `ssh` accepts. -/
theorem pinned_of_keyText {host : HostEntry} (h : KeyText parseKey host.sshHostPublicKey)
    {tmp : TempFile} (htmp : tmp.mkstemp.isSome) (agentArgs : List String) :
    Pinned parseKey host tmp agentArgs := by
  obtain ⟨name, hname⟩ := Option.isSome_iff_exists.mp htmp
  have hvalid := (valid_open_iff h.ne tmp).mpr htmp
  obtain ⟨halias, huser, hglobal⟩ := settings_of_valid hvalid agentArgs
  have hone := oneKey_of_line parseKey h.line h.whole tmp
  exact ⟨(strict_iff host tmp agentArgs).mpr hvalid, halias, huser, hglobal,
    (onlyRecorded_iff parseKey h.ne hname).mpr hone⟩

end AgentClient

namespace Trust

open Pairing AgentClient

/-- The host that the dialog records for a confirmation. -/
def hostFor (screen : PairingOutput.Screen) (keyOut : String) (c : Confirm) : HostEntry :=
  PairingOutput.entryOf screen (PairingOutput.resultJson keyOut c)

theorem hostFor_fields (screen : PairingOutput.Screen) (keyOut : String) (c : Confirm) :
    (hostFor screen keyOut c).hostname = c.hostname ∧
      (hostFor screen keyOut c).sshPort = c.sshPort.toNat ∧
      (hostFor screen keyOut c).username = c.username ∧
      (hostFor screen keyOut c).fingerprint = c.fingerprint ∧
      (hostFor screen keyOut c).sshHostPublicKey = c.sshHostPublicKey := by
  have hport : c.sshPort.toNat < 2147483648 := by
    have hlt := c.sshPort.toNat_lt
    omega
  have hmember : Json.member "ssh_port" (some (PairingOutput.resultJson keyOut c)) =
      some (.num c.sshPort.toNat) := rfl
  refine ⟨rfl, ?_, rfl, rfl, rfl⟩
  simp only [hostFor, PairingOutput.entryOf, PairingDialog.ResultLine.entry,
    PairingOutput.pairResult, hmember]
  rw [if_pos hport, Option.getD_some]

/-- **The parent pins the child's own key.** Let an attacker own the network while one `pair`
and one `serve` run, and let `c` be what the parent is shown or has said yes to. Then `serve`
has made `c` on some connection, of this machine and for the parent's own key; and whenever
the Control Center later calls the host that the dialog records for `c`, `ssh` checks the
server strictly, and accepts no key but the one that stands in the child's own host key file.
-/
theorem paired_host_is_pinned {K : Type} {x : Crates K} {srv : Server} {cl : Client}
    (file : KeysFile) {events : List Event}
    (h : Runs.Along (networkStep x srv cl) (Admissible x srv) { authorizedKeys := file } events)
    {Key : Type} {parseKey : List UInt8 → Option Key}
    (hkeys : ∀ m path text, .connect m ∈ events → m.hostKeyFile path = .contents text →
      KeyText parseKey (String.ofList (Text.trim text.toList)))
    {c : Confirm}
    (hc : let net := Runs.run (networkStep x srv cl) { authorizedKeys := file } events
      (∃ key, net.client = .shown key c) ∨ net.confirmed = some c)
    (screen : PairingOutput.Screen) (keyOut : String) {tmp : TempFile} (htmp : tmp.mkstemp.isSome)
    (agentArgs : List String) :
    ∃ m, .connect m ∈ events ∧ confirmFor srv m cl.pubkey = .ok c ∧
      (∃ path ∈ hostKeyCandidates, ∃ text, m.hostKeyFile path = .contents text ∧
        (hostFor screen keyOut c).sshHostPublicKey = String.ofList (Text.trim text.toList)) ∧
      (hostFor screen keyOut c).hostname = srv.hostname ∧
      (hostFor screen keyOut c).sshPort = srv.sshPort.toNat ∧
      validateAndFingerprint m cl.pubkey = .ok (hostFor screen keyOut c).fingerprint ∧
      Pinned parseKey (hostFor screen keyOut c) tmp agentArgs := by
  have htraced := traced_run file h
  have hinv := run_inv file h
  obtain ⟨key, hsent⟩ : ∃ key, ⟨.serve, key, .confirm c⟩ ∈
      (Runs.run (networkStep x srv cl) { authorizedKeys := file } events).sealed := by
    rcases hc with ⟨key, hshown⟩ | hconfirmed
    · exact ⟨key, (hinv.sealing.shown key c hshown).2.2⟩
    · exact htraced.confirmed c hconfirmed
  obtain ⟨m, hm, hconfirm⟩ := htraced.confirms key c hsent
  obtain ⟨hown, hport', path, hpath, text, htext, hkey⟩ := confirmFor_own hconfirm
  obtain ⟨hhostname, hport, -, hfingerprint, hhostKey⟩ := hostFor_fields screen keyOut c
  have hkeyText : KeyText parseKey (hostFor screen keyOut c).sshHostPublicKey := by
    rw [hhostKey, hkey]
    exact hkeys m path text hm htext
  refine ⟨m, hm, hconfirm, ⟨path, hpath, text, htext, hhostKey.trans hkey⟩,
    hhostname.trans hown, by rw [hport, hport'], ?_,
    pinned_of_keyText parseKey hkeyText htmp agentArgs⟩
  rw [hfingerprint]
  exact confirmFor_eq_ok srv hconfirm

/-! ### A pairing -/

def keyedConfirm : Confirm := { kidConfirm with sshHostPublicKey := "ssh-ed25519 AAAA" }

def keyedMachine : Machine :=
  { kidMachine 8 with hostKeyFile _ := .contents "ssh-ed25519 AAAA\n" }

def keyedCrates : Crates (List UInt8) :=
  sampleCrates [.pubkey "ssh-rsa K", .confirm keyedConfirm, .ack true]

/-- Everything is relayed, up to the parent's yes. -/
def keyedEvents : List Event :=
  [.connect keyedMachine, .toServer (clientHello demoCrates parentClient),
    .toClient (.spakeMsg (demoCrates.base64Encode [0x42, 8])),
    .toServer (demoSeal parentClient.pubkeyNonce (.pubkey "ssh-rsa K")),
    .toClient (demoSeal (List.replicate 12 3) (.confirm keyedConfirm)), .answer "y\n"]

theorem keyText_sample : KeyText readsTwo "ssh-ed25519 AAAA" where
  ne := by decide
  line := by decide +kernel
  whole n key hkey := by
    have hwhole : KnownHosts.keyOf readsTwo
        (KnownHosts.content (Lines.first 10 (Utf8.bytes "ssh-ed25519 AAAA"))) =
          KnownHosts.keyOf readsTwo (KnownHosts.content (Utf8.bytes "ssh-ed25519 AAAA")) := by
      decide +kernel
    have hshort : ∀ n < 16, KnownHosts.keyOf readsTwo
        (KnownHosts.content ((Utf8.bytes "ssh-ed25519 AAAA").take n)) = none := by
      decide +kernel
    rcases Nat.lt_or_ge n 16 with hn | hn
    · rw [hshort n hn] at hkey
      cases hkey
    · rw [List.take_of_length_le (le_trans (by decide +kernel) hn)] at hkey
      rwa [hwhole]

theorem paired_host_is_pinned_mia :
    Pinned readsTwo (hostFor ⟨"Mia", "2026-09-01T00:00:05Z"⟩ "/home/parent/keys/Mia" keyedConfirm)
      ⟨some tempName, 1000⟩ ["status", "--json"] := by
  obtain ⟨-, -, -, -, -, -, -, hpinned⟩ :=
    @paired_host_is_pinned _ keyedCrates kidServer parentClient none keyedEvents
      (by decide +kernel) _ readsTwo (fun m path text hm htext => by
        obtain rfl : m = keyedMachine := by simpa [keyedEvents] using hm
        cases htext
        have htrim : String.ofList (Text.trim "ssh-ed25519 AAAA\n".toList) =
          "ssh-ed25519 AAAA" := by decide +kernel
        rw [htrim]
        exact keyText_sample) keyedConfirm (.inr (by decide +kernel))
      ⟨"Mia", "2026-09-01T00:00:05Z"⟩ "/home/parent/keys/Mia" ⟨some tempName, 1000⟩ rfl
      ["status", "--json"]
  exact hpinned

end Trust

end OmarchyKids
