import OmarchyKids.Lib.Base64
import OmarchyKids.Lib.Json
import OmarchyKids.Pairing.Network

/-!
# OmarchyKids.Pairing.Agreement

What holds on the attacker's network at every point of every run.

`Transition` lists what an admissible event can do; every invariant is proved by
cases on it. `Exchanges` keeps the connections of `serve` apart by their keys,
`Sealing` says who can have sealed what, and `Agreed` what both ends have agreed
on when a key reaches `authorized_keys`.
-/

namespace OmarchyKids.Pairing

variable {K : Type} {x : Crates K} {srv : Server} {cl : Client}

/-! ### What an event can do -/

variable (cl) in
/-- The effect of an admissible event, one constructor for each way the state
can change. -/
inductive Transition (net : Network K) : Network K → Prop
  | connect (m : Machine) : net.server = .idle →
      Transition net { net with server := .awaitHello m }
  | hello (m : Machine) (key : K) : net.server = .awaitHello m → key ∉ net.serverKeys →
      Transition net
        { net with server := .awaitPayload m key, serverKeys := net.serverKeys ++ [key] }
  | payload (m : Machine) (s : AwaitAck K) (author : Author) :
      net.server = .awaitPayload m s.sharedKey →
      ⟨author, s.sharedKey, .pubkey s.pubkey⟩ ∈ net.sealed →
      validateAndFingerprint m s.pubkey = .ok s.confirm.fingerprint →
      Transition net
        { net with
          server := .awaitAck m s
          sealed := net.sealed ++ [⟨.serve, s.sharedKey, .confirm s.confirm⟩] }
  | install (m : Machine) (s : AwaitAck K) (author : Author) (server : ServerPhase K) :
      net.server = .awaitAck m s → ⟨author, s.sharedKey, .ack true⟩ ∈ net.sealed →
      server = .returned ∨ server = .idle →
      Transition net
        { net with
          server := server
          authorizedKeys := installKey net.authorizedKeys ⟨s.sharedKey, m, s.pubkey⟩
          installs := net.installs ++ [⟨s.sharedKey, m, s.pubkey⟩] }
  | leave (server : ServerPhase K) : server = .returned ∨ server = .idle →
      Transition net { net with server := server }
  | reply (key : K) : net.client = .awaitReply →
      Transition net
        { net with
          client := .awaitConfirm key
          clientKey := some key
          sealed := net.sealed ++ [⟨.client, key, .pubkey cl.pubkey⟩] }
  | confirm (key : K) (c : Confirm) (author : Author) : net.client = .awaitConfirm key →
      ⟨author, key, .confirm c⟩ ∈ net.sealed →
      Transition net { net with client := .shown key c }
  | answer (key : K) (c : Confirm) (yes : Bool) : net.client = .shown key c →
      Transition net
        { net with
          client := .ended
          sealed := net.sealed ++ [⟨.client, key, .ack yes⟩]
          confirmed := if yes then some c else net.confirmed }
  | clientEnds : Transition net { net with client := .ended }

/-- An admissible event changes nothing or makes one of the transitions. -/
theorem networkStep_transition {net : Network K} {e : Event} (h : Admissible x srv net e) :
    networkStep x srv cl net e = net ∨ Transition cl net (networkStep x srv cl net e) := by
  cases e with
  | connect m =>
      cases hserver : net.server with
      | idle =>
          right
          simp only [networkStep, hserver]
          exact .connect m hserver
      | _ => exact .inl (by simp only [networkStep, hserver])
  | toServer msg =>
      show net.toServer x srv msg = net ∨ Transition cl net (net.toServer x srv msg)
      cases hserver : net.server with
      | awaitHello m =>
          right
          simp only [Network.toServer, hserver]
          simp only [Admissible, hserver] at h
          cases hnext : (onHello x srv m msg).next with
          | error e => exact .leave .idle (.inr rfl)
          | ok key =>
              rw [hnext] at h
              exact .hello m key hserver h
      | awaitPayload m key =>
          right
          simp only [Network.toServer, hserver]
          simp only [Admissible, hserver] at h
          cases hnext : (onPayload x srv m key msg).next with
          | error e => exact .leave .idle (.inr rfl)
          | ok s =>
              obtain ⟨rfl, hpubkey, hconfirm, -⟩ := onPayload_eq_ok x srv hnext
              obtain ⟨author, hsealed⟩ := h.sealed x hpubkey
              exact .payload m s author hserver hsealed (confirmFor_eq_ok srv hconfirm)
      | awaitAck m s =>
          right
          simp only [Network.toServer, hserver]
          simp only [Admissible, hserver] at h
          cases hnext : onAck x s msg with
          | error e => exact .leave .idle (.inr rfl)
          | ok pubkey =>
              obtain ⟨hack, rfl⟩ := (onAck_eq_ok x).mp hnext
              obtain ⟨author, hsealed⟩ := h.sealed x hack
              refine .install m s author _ hserver hsealed ?_
              split
              · exact .inl rfl
              · exact .inr rfl
      | _ => exact .inl (by simp only [Network.toServer, hserver])
  | serverFails =>
      cases hserver : net.server with
      | returned => exact .inl (by simp only [networkStep, hserver])
      | _ =>
          right
          simp only [networkStep, hserver]
          exact .leave .idle (.inr rfl)
  | deadline =>
      cases hserver : net.server with
      | idle =>
          right
          simp only [networkStep, hserver]
          exact .leave .returned (.inl rfl)
      | _ => exact .inl (by simp only [networkStep, hserver])
  | toClient msg =>
      show net.toClient x cl msg = net ∨ Transition cl net (net.toClient x cl msg)
      cases hclient : net.client with
      | awaitReply =>
          right
          simp only [Network.toClient, hclient]
          cases hreply : onReply x cl msg with
          | error e => exact .clientEnds
          | ok result => exact .reply result.1 hclient
      | awaitConfirm key =>
          right
          simp only [Network.toClient, hclient]
          simp only [Admissible, hclient] at h
          cases hconfirm : onConfirm x key msg with
          | error e => exact .clientEnds
          | ok c =>
              obtain ⟨author, hsealed⟩ := h.sealed x ((onConfirm_eq_ok x).mp hconfirm)
              exact .confirm key c author hclient hsealed
      | _ => exact .inl (by simp only [Network.toClient, hclient])
  | answer line =>
      show net.answer x cl line = net ∨ Transition cl net (net.answer x cl line)
      cases hclient : net.client with
      | shown key c =>
          right
          simp only [Network.answer, hclient]
          cases hack : acknowledge x cl key line with
          | error e => exact .clientEnds
          | ok msg => exact .answer key c (confirms cl line) hclient
      | _ => exact .inl (by simp only [Network.answer, hclient])
  | clientFails => exact .inr .clientEnds

theorem mem_snoc {α : Type} {a b : α} {l : List α} : a ∈ l ++ [b] ↔ a ∈ l ∨ a = b := by
  rw [List.mem_append, List.mem_singleton]

/-! ### The connections of `serve` -/

/-- Every connection that got past the `Hello` has a key of its own; under it
`serve` seals at most one payload, and calls `write_to_authorized_keys` at most
once, in the end. -/
structure Exchanges (net : Network K) : Prop where
  derived : ∀ key, net.server.key = some key → key ∈ net.serverKeys
  sealedKeys : ∀ s ∈ net.sealed, s.author = .serve → s.key ∈ net.serverKeys
  installedKeys : ∀ i ∈ net.installs, i.key ∈ net.serverKeys
  notSealed : ∀ m key, net.server = .awaitPayload m key →
    ∀ s ∈ net.sealed, s.author = .serve → s.key ≠ key
  notInstalled : ∀ key, net.server.key = some key → ∀ i ∈ net.installs, i.key ≠ key
  oneConfirm : ∀ s ∈ net.sealed, ∀ t ∈ net.sealed, s.author = .serve → t.author = .serve →
    s.key = t.key → s = t

theorem exchanges_start (file : KeysFile) : Exchanges ({ authorizedKeys := file } : Network K) where
  derived _ h := by cases h
  sealedKeys _ h := by cases h
  installedKeys _ h := by cases h
  notSealed _ _ h := by cases h
  notInstalled _ h := by cases h
  oneConfirm _ h := by cases h

/-- What the client seals is no concern of `serve`'s. -/
theorem Exchanges.append_client {net net' : Network K} (h : Exchanges net) {t : Sealed K}
    (ht : t.author = .client) (hsealed : net'.sealed = net.sealed ++ [t])
    (hserver : net'.server = net.server) (hkeys : net'.serverKeys = net.serverKeys)
    (hinstalls : net'.installs = net.installs) : Exchanges net' := by
  have hold : ∀ s ∈ net'.sealed, s.author = .serve → s ∈ net.sealed := by
    intro s hs hauthor
    rw [hsealed] at hs
    rcases mem_snoc.mp hs with hs | rfl
    · exact hs
    · cases ht.symm.trans hauthor
  refine ⟨?_, ?_, ?_, ?_, ?_, ?_⟩
  · rw [hserver, hkeys]
    exact h.derived
  · intro s hs hauthor
    rw [hkeys]
    exact h.sealedKeys s (hold s hs hauthor) hauthor
  · rw [hinstalls, hkeys]
    exact h.installedKeys
  · intro m key' hphase s hs hauthor
    rw [hserver] at hphase
    exact h.notSealed m key' hphase s (hold s hs hauthor) hauthor
  · rw [hserver, hinstalls]
    exact h.notInstalled
  · intro s hs t ht hsa hta
    exact h.oneConfirm s (hold s hs hsa) t (hold t ht hta) hsa hta

theorem Transition.exchanges {net net' : Network K} (ht : Transition cl net net')
    (h : Exchanges net) : Exchanges net' := by
  cases ht with
  | connect m hserver =>
      exact ⟨fun _ hkey => (by cases hkey), h.sealedKeys, h.installedKeys,
        fun _ _ hphase => (by cases hphase), fun _ hkey => (by cases hkey), h.oneConfirm⟩
  | hello m key hserver hfresh =>
      refine ⟨?_, ?_, ?_, ?_, ?_, h.oneConfirm⟩
      · intro key' hkey
        cases hkey
        exact List.mem_append_right _ List.mem_cons_self
      · intro s hs hauthor
        exact List.mem_append_left _ (h.sealedKeys s hs hauthor)
      · intro i hi
        exact List.mem_append_left _ (h.installedKeys i hi)
      · intro m' key' hphase s hs hauthor heq
        cases hphase
        exact hfresh (heq ▸ h.sealedKeys s hs hauthor)
      · intro key' hkey i hi heq
        cases hkey
        exact hfresh (heq ▸ h.installedKeys i hi)
  | payload m s author hserver hpubkey hfingerprint =>
      have hkey : net.server.key = some s.sharedKey := by rw [hserver]; rfl
      have hnew := h.notSealed m s.sharedKey hserver
      refine ⟨?_, ?_, h.installedKeys, ?_, ?_, ?_⟩
      · intro key' hkey'
        cases hkey'
        exact h.derived _ hkey
      · intro t ht hauthor
        rcases mem_snoc.mp ht with ht | rfl
        · exact h.sealedKeys t ht hauthor
        · exact h.derived _ hkey
      · intro m' key' hphase
        cases hphase
      · intro key' hkey'
        cases hkey'
        exact h.notInstalled _ hkey
      · intro t ht u hu hta hua heq
        rcases mem_snoc.mp ht with ht | rfl
        · rcases mem_snoc.mp hu with hu | rfl
          · exact h.oneConfirm t ht u hu hta hua heq
          · exact absurd heq (hnew t ht hta)
        · rcases mem_snoc.mp hu with hu | rfl
          · exact absurd heq.symm (hnew u hu hua)
          · rfl
  | install m s author server hserver hack hleave =>
      have hnokey : server.key = none := by
        rcases hleave with rfl | rfl <;> rfl
      refine ⟨?_, h.sealedKeys, ?_, ?_, ?_, h.oneConfirm⟩
      · intro key' hkey'
        exact absurd hkey' (by simp [hnokey])
      · intro i hi
        rcases mem_snoc.mp hi with hi | rfl
        · exact h.installedKeys i hi
        · exact h.derived _ (by rw [hserver]; rfl)
      · intro m' key' hphase
        rcases hleave with rfl | rfl <;> cases hphase
      · intro key' hkey'
        exact absurd hkey' (by simp [hnokey])
  | leave server hleave =>
      rcases hleave with rfl | rfl <;>
        exact ⟨fun _ hkey => (by cases hkey), h.sealedKeys, h.installedKeys,
          fun _ _ hphase => (by cases hphase), fun _ hkey => (by cases hkey), h.oneConfirm⟩
  | reply key hclient => exact h.append_client rfl rfl rfl rfl rfl
  | confirm key c author hclient hsealed =>
      exact ⟨h.derived, h.sealedKeys, h.installedKeys, h.notSealed, h.notInstalled, h.oneConfirm⟩
  | answer key c yes hclient => exact h.append_client rfl rfl rfl rfl rfl
  | clientEnds =>
      exact ⟨h.derived, h.sealedKeys, h.installedKeys, h.notSealed, h.notInstalled, h.oneConfirm⟩

/-! ### Who can have sealed what -/

variable (cl) in
/-- The client seals its own public key and at most one answer, under its one
key; `serve` seals confirmations only. A confirming `Ack` says that the client's
user said yes to a confirmation `serve` sealed under the same key. -/
structure Sealing (net : Network K) : Prop where
  client : ∀ s ∈ net.sealed, s.author = .client → net.clientKey = some s.key ∧
    (s.payload = .pubkey cl.pubkey ∨ ∃ yes, s.payload = .ack yes)
  serve : ∀ s ∈ net.sealed, s.author = .serve → ∃ c, s.payload = .confirm c
  acked : ∀ s ∈ net.sealed, s.payload = .ack true →
    ∃ c, net.confirmed = some c ∧ ⟨.serve, s.key, .confirm c⟩ ∈ net.sealed
  awaitReply : net.client = .awaitReply → net.clientKey = none ∧ net.confirmed = none
  awaitConfirm : ∀ key, net.client = .awaitConfirm key →
    net.clientKey = some key ∧ net.confirmed = none
  shown : ∀ key c, net.client = .shown key c → net.clientKey = some key ∧
    net.confirmed = none ∧ ⟨.serve, key, .confirm c⟩ ∈ net.sealed

theorem sealing_start (file : KeysFile) :
    Sealing cl ({ authorizedKeys := file } : Network K) where
  client _ h := by cases h
  serve _ h := by cases h
  acked _ h := by cases h
  awaitReply _ := ⟨rfl, rfl⟩
  awaitConfirm _ h := by cases h
  shown _ _ h := by cases h

/-- A sealed public key is the client's, whoever it reaches. -/
theorem Sealing.pubkey {net : Network K} (h : Sealing cl net) {author : Author} {key : K}
    {pubkey : String} (hs : ⟨author, key, .pubkey pubkey⟩ ∈ net.sealed) :
    author = .client ∧ pubkey = cl.pubkey := by
  cases author with
  | client =>
      rcases (h.client _ hs rfl).2 with heq | ⟨yes, heq⟩
      · cases heq
        exact ⟨rfl, rfl⟩
      · cases heq
  | serve =>
      obtain ⟨c, heq⟩ := h.serve _ hs rfl
      cases heq

/-- A sealed `Ack` is the client's. -/
theorem Sealing.ack {net : Network K} (h : Sealing cl net) {author : Author} {key : K}
    {yes : Bool} (hs : ⟨author, key, .ack yes⟩ ∈ net.sealed) : author = .client := by
  cases author with
  | client => rfl
  | serve =>
      obtain ⟨c, heq⟩ := h.serve _ hs rfl
      cases heq

/-- A sealed confirmation is `serve`'s. -/
theorem Sealing.confirm {net : Network K} (h : Sealing cl net) {author : Author} {key : K}
    {c : Confirm} (hs : ⟨author, key, .confirm c⟩ ∈ net.sealed) : author = .serve := by
  cases author with
  | client =>
      rcases (h.client _ hs rfl).2 with heq | ⟨yes, heq⟩
      · cases heq
      · cases heq
  | serve => rfl

/-- Another sealed payload, of `serve`'s only if it is a confirmation. -/
theorem Sealing.serve_snoc {net : Network K} (h : Sealing cl net) {t : Sealed K}
    (ht : t.author = .serve → ∃ c, t.payload = .confirm c) :
    ∀ s ∈ net.sealed ++ [t], s.author = .serve → ∃ c, s.payload = .confirm c := by
  intro s hs hauthor
  rcases mem_snoc.mp hs with hs | rfl
  · exact h.serve s hs hauthor
  · exact ht hauthor

/-- Another sealed payload that is no confirming `Ack`. -/
theorem Sealing.acked_snoc {net : Network K} (h : Sealing cl net) {t : Sealed K}
    (ht : t.payload ≠ .ack true) :
    ∀ s ∈ net.sealed ++ [t], s.payload = .ack true →
      ∃ c, net.confirmed = some c ∧ ⟨.serve, s.key, .confirm c⟩ ∈ net.sealed ++ [t] := by
  intro s hs hack
  rcases mem_snoc.mp hs with hs | rfl
  · obtain ⟨c, hc, hsealed⟩ := h.acked s hs hack
    exact ⟨c, hc, List.mem_append_left _ hsealed⟩
  · exact absurd hack ht

theorem Transition.sealing {net net' : Network K} (ht : Transition cl net net')
    (h : Sealing cl net) : Sealing cl net' := by
  cases ht with
  | connect m hserver =>
      exact ⟨h.client, h.serve, h.acked, h.awaitReply, h.awaitConfirm, h.shown⟩
  | hello m key hserver hfresh =>
      exact ⟨h.client, h.serve, h.acked, h.awaitReply, h.awaitConfirm, h.shown⟩
  | payload m s author hserver hpubkey hfingerprint =>
      refine ⟨?_, h.serve_snoc fun _ => ⟨s.confirm, rfl⟩, h.acked_snoc fun hack => (by cases hack),
        h.awaitReply, h.awaitConfirm, ?_⟩
      · intro t ht hauthor
        rcases mem_snoc.mp ht with ht | rfl
        · exact h.client t ht hauthor
        · cases hauthor
      · intro key c hclient
        obtain ⟨hkey, hnone, hsealed⟩ := h.shown key c hclient
        exact ⟨hkey, hnone, List.mem_append_left _ hsealed⟩
  | install m s author server hserver hack hleave =>
      exact ⟨h.client, h.serve, h.acked, h.awaitReply, h.awaitConfirm, h.shown⟩
  | leave server hleave =>
      exact ⟨h.client, h.serve, h.acked, h.awaitReply, h.awaitConfirm, h.shown⟩
  | reply key hclient =>
      obtain ⟨hnokey, hnone⟩ := h.awaitReply hclient
      refine ⟨?_, h.serve_snoc fun hauthor => (by cases hauthor),
        h.acked_snoc fun hack => (by cases hack), ?_, ?_, ?_⟩
      · intro t ht hauthor
        rcases mem_snoc.mp ht with ht | rfl
        · -- the client has had no key so far
          have hkey := (h.client t ht hauthor).1
          rw [hnokey] at hkey
          cases hkey
        · exact ⟨rfl, .inl rfl⟩
      · intro hphase
        cases hphase
      · intro key' hphase
        cases hphase
        exact ⟨rfl, hnone⟩
      · intro key' c hphase
        cases hphase
  | confirm key c author hclient hsealed =>
      obtain ⟨hkey, hnone⟩ := h.awaitConfirm key hclient
      refine ⟨h.client, h.serve, h.acked, ?_, ?_, ?_⟩
      · intro hphase
        cases hphase
      · intro key' hphase
        cases hphase
      · intro key' c' hphase
        cases hphase
        obtain rfl := h.confirm hsealed
        exact ⟨hkey, hnone, hsealed⟩
  | answer key c yes hclient =>
      obtain ⟨hkey, hnone, hsealed⟩ := h.shown key c hclient
      refine ⟨?_, h.serve_snoc fun hauthor => (by cases hauthor), ?_, ?_, ?_, ?_⟩
      · intro t ht hauthor
        rcases mem_snoc.mp ht with ht | rfl
        · exact h.client t ht hauthor
        · exact ⟨hkey, .inr ⟨yes, rfl⟩⟩
      · intro t ht hack
        rcases mem_snoc.mp ht with ht | rfl
        · -- no earlier `Ack`: nothing was confirmed yet
          obtain ⟨c', hc', -⟩ := h.acked t ht hack
          rw [hnone] at hc'
          cases hc'
        · cases hack
          exact ⟨c, rfl, List.mem_append_left _ hsealed⟩
      · intro hphase
        cases hphase
      · intro key' hphase
        cases hphase
      · intro key' c' hphase
        cases hphase
  | clientEnds =>
      refine ⟨h.client, h.serve, h.acked, ?_, ?_, ?_⟩
      · intro hphase
        cases hphase
      · intro key hphase
        cases hphase
      · intro key c hphase
        cases hphase

/-! ### What an installed key means -/

variable (cl) in
/-- What stands between `Confirm` and `Ack`. -/
structure Pending (net : Network K) (m : Machine) (s : AwaitAck K) : Prop where
  own : s.pubkey = cl.pubkey
  pubkeySent : ⟨.client, s.sharedKey, .pubkey cl.pubkey⟩ ∈ net.sealed
  confirmSent : ⟨.serve, s.sharedKey, .confirm s.confirm⟩ ∈ net.sealed
  fingerprint : validateAndFingerprint m s.pubkey = .ok s.confirm.fingerprint

variable (cl) in
/-- The key is the one the client generated and sent under this connection's key;
the client's user said yes to the confirmation that `serve` sent for it on this
connection, with its fingerprint; and the client said so under the same key. -/
structure Agreed (net : Network K) (i : Install K) : Prop where
  own : i.pubkey = cl.pubkey
  pubkeySent : ⟨.client, i.key, .pubkey cl.pubkey⟩ ∈ net.sealed
  confirmed : ∃ c, net.confirmed = some c ∧ ⟨.serve, i.key, .confirm c⟩ ∈ net.sealed ∧
    validateAndFingerprint i.machine i.pubkey = .ok c.fingerprint
  ackSent : ⟨.client, i.key, .ack true⟩ ∈ net.sealed

theorem Pending.mono {net net' : Network K} {m : Machine} {s : AwaitAck K}
    (h : Pending cl net m s) (hsealed : net.sealed ⊆ net'.sealed) : Pending cl net' m s :=
  ⟨h.own, hsealed h.pubkeySent, hsealed h.confirmSent, h.fingerprint⟩

theorem Agreed.mono {net net' : Network K} {i : Install K} (h : Agreed cl net i)
    (hsealed : net.sealed ⊆ net'.sealed) (hconfirmed : net'.confirmed = net.confirmed) :
    Agreed cl net' i := by
  obtain ⟨c, hc, hsent, hfingerprint⟩ := h.confirmed
  exact ⟨h.own, hsealed h.pubkeySent, ⟨c, hconfirmed.trans hc, hsealed hsent, hfingerprint⟩,
    hsealed h.ackSent⟩

variable (cl) in
/-- The invariant of the network. -/
structure Inv (file : KeysFile) (net : Network K) : Prop where
  exchanges : Exchanges net
  sealing : Sealing cl net
  pending : ∀ m s, net.server = .awaitAck m s → Pending cl net m s
  agreed : ∀ i ∈ net.installs, Agreed cl net i
  once : net.installs.length ≤ 1
  written : net.authorizedKeys = net.installs.foldl installKey file

theorem inv_start (file : KeysFile) : Inv cl file ({ authorizedKeys := file } : Network K) where
  exchanges := exchanges_start file
  sealing := sealing_start file
  pending _ _ h := by cases h
  agreed _ h := by cases h
  once := Nat.zero_le 1
  written := rfl

/-- Every install so far was made under the client's key. -/
theorem Inv.installed_key {file : KeysFile} {net : Network K} (h : Inv cl file net)
    {i : Install K} (hi : i ∈ net.installs) : net.clientKey = some i.key :=
  (h.sealing.client _ (h.agreed i hi).pubkeySent rfl).1

/-- An `Ack` under the current connection's key is the first one `serve` accepts:
an earlier install would have the same key, and with it the same connection. -/
theorem Inv.installs_nil {file : KeysFile} {net : Network K} (h : Inv cl file net) {m : Machine}
    {s : AwaitAck K} (hserver : net.server = .awaitAck m s) : net.installs = [] := by
  refine List.eq_nil_iff_forall_not_mem.mpr ?_
  intro i hi
  have hkey : net.server.key = some s.sharedKey := by rw [hserver]; rfl
  have hclient := (h.sealing.client _ (h.pending m s hserver).pubkeySent rfl).1
  have heq : i.key = s.sharedKey := Option.some.inj ((h.installed_key hi).symm.trans hclient)
  exact h.exchanges.notInstalled _ hkey i hi heq

/-- What a confirming `Ack` under the current connection's key establishes. -/
theorem Inv.agreed_of_ack {file : KeysFile} {net : Network K} (h : Inv cl file net) {m : Machine}
    {s : AwaitAck K} {author : Author} (hserver : net.server = .awaitAck m s)
    (hack : ⟨author, s.sharedKey, .ack true⟩ ∈ net.sealed) :
    Agreed cl net ⟨s.sharedKey, m, s.pubkey⟩ := by
  have hpending := h.pending m s hserver
  obtain rfl := h.sealing.ack hack
  obtain ⟨c, hc, hconfirm⟩ := h.sealing.acked _ hack rfl
  -- under this key `serve` has sealed one confirmation only
  have hsame := h.exchanges.oneConfirm _ hconfirm _ hpending.confirmSent rfl rfl rfl
  cases hsame
  exact ⟨hpending.own, hpending.pubkeySent, ⟨_, hc, hconfirm, hpending.fingerprint⟩, hack⟩

theorem Transition.inv {file : KeysFile} {net net' : Network K} (ht : Transition cl net net')
    (h : Inv cl file net) : Inv cl file net' := by
  have hexchanges := ht.exchanges h.exchanges
  have hsealing := ht.sealing h.sealing
  cases ht with
  | connect m hserver =>
      exact ⟨hexchanges, hsealing, fun _ _ hphase => (by cases hphase),
        fun i hi => (h.agreed i hi).mono (List.Subset.refl _) rfl, h.once, h.written⟩
  | hello m key hserver hfresh =>
      exact ⟨hexchanges, hsealing, fun _ _ hphase => (by cases hphase),
        fun i hi => (h.agreed i hi).mono (List.Subset.refl _) rfl, h.once, h.written⟩
  | payload m s author hserver hpubkey hfingerprint =>
      refine ⟨hexchanges, hsealing, ?_, ?_, h.once, h.written⟩
      · intro m' s' hphase
        cases hphase
        obtain ⟨rfl, hown⟩ := h.sealing.pubkey hpubkey
        rw [hown] at hpubkey
        exact ⟨hown, List.mem_append_left _ hpubkey,
          List.mem_append_right _ List.mem_cons_self, hfingerprint⟩
      · intro i hi
        exact (h.agreed i hi).mono (List.subset_append_left _ _) rfl
  | install m s author server hserver hack hleave =>
      refine ⟨hexchanges, hsealing, ?_, ?_, ?_, ?_⟩
      · intro m' s' hphase
        rcases hleave with rfl | rfl <;> cases hphase
      · intro i hi
        rcases mem_snoc.mp hi with hi | rfl
        · exact (h.agreed i hi).mono (List.Subset.refl _) rfl
        · exact (h.agreed_of_ack hserver hack).mono (List.Subset.refl _) rfl
      · show (net.installs ++ [_]).length ≤ 1
        rw [h.installs_nil hserver]
        exact Nat.le_refl 1
      · show installKey net.authorizedKeys _ = (net.installs ++ [_]).foldl installKey file
        rw [List.foldl_append, ← h.written]
        rfl
  | leave server hleave =>
      refine ⟨hexchanges, hsealing, ?_, ?_, h.once, h.written⟩
      · intro m' s' hphase
        rcases hleave with rfl | rfl <;> cases hphase
      · intro i hi
        exact (h.agreed i hi).mono (List.Subset.refl _) rfl
  | reply key hclient =>
      refine ⟨hexchanges, hsealing, ?_, ?_, h.once, h.written⟩
      · intro m s hphase
        exact (h.pending m s hphase).mono (List.subset_append_left _ _)
      · intro i hi
        exact (h.agreed i hi).mono (List.subset_append_left _ _) rfl
  | confirm key c author hclient hsealed =>
      exact ⟨hexchanges, hsealing, fun m s hphase => (h.pending m s hphase).mono (List.Subset.refl _),
        fun i hi => (h.agreed i hi).mono (List.Subset.refl _) rfl, h.once, h.written⟩
  | answer key c yes hclient =>
      refine ⟨hexchanges, hsealing, ?_, ?_, h.once, h.written⟩
      · intro m s hphase
        exact (h.pending m s hphase).mono (List.subset_append_left _ _)
      · intro i hi
        -- nothing can have been installed before the first answer
        obtain ⟨c', hc', -⟩ := (h.agreed i hi).confirmed
        rw [(h.sealing.shown key c hclient).2.1] at hc'
        cases hc'
  | clientEnds =>
      exact ⟨hexchanges, hsealing, fun m s hphase => (h.pending m s hphase).mono (List.Subset.refl _),
        fun i hi => (h.agreed i hi).mono (List.Subset.refl _) rfl, h.once, h.written⟩

theorem run_inv (file : KeysFile) {events : List Event}
    (h : Runs.Along (networkStep x srv cl) (Admissible x srv) { authorizedKeys := file } events) :
    Inv cl file (Runs.run (networkStep x srv cl) { authorizedKeys := file } events) := by
  refine Runs.run_invariant_along (inv_start file) ?_ h
  intro net e hadmissible hinv
  rcases @networkStep_transition K x srv cl net e hadmissible with hsame | ht
  · rw [hsame]
    exact hinv
  · exact ht.inv hinv

/-- The one way a message leads to an install. -/
theorem toServer_installs {net : Network K} {msg : Message}
    (h : (net.toServer x srv msg).installs ≠ net.installs) :
    ∃ m s, net.server = .awaitAck m s ∧ decrypt x s.sharedKey msg = .ok (.ack true) := by
  unfold Network.toServer at h
  split at h
  · split at h <;> exact absurd rfl h
  · split at h <;> exact absurd rfl h
  · next m s hserver =>
      split at h
      · exact absurd rfl h
      · next pubkey hack => exact ⟨m, s, hserver, ((onAck_eq_ok x).mp hack).1⟩
  · exact absurd rfl h

/-- On the attacker's network `authorized_keys` changes by at most one install, of
the client's own key, confirmed by the client's user on the fingerprint that
`serve` sent for it. No message leads to it but a ciphertext of the client's
confirming `Ack` for that connection, and only once: replayed and reflected
ciphertexts install nothing. -/
theorem install_was_confirmed (file : KeysFile) {events : List Event}
    (h : Runs.Along (networkStep x srv cl) (Admissible x srv) { authorizedKeys := file } events) :
    let net := Runs.run (networkStep x srv cl) { authorizedKeys := file } events
    net.authorizedKeys = net.installs.foldl installKey file ∧
    net.installs.length ≤ 1 ∧
    (∀ i ∈ net.installs, Agreed cl net i) ∧
    ∀ before msg after, events = before ++ .toServer msg :: after →
      let now := Runs.run (networkStep x srv cl) { authorizedKeys := file } before
      (now.toServer x srv msg).installs ≠ now.installs →
      now.installs = [] ∧ ∃ m s, now.server = .awaitAck m s ∧
        decrypt x s.sharedKey msg = .ok (.ack true) ∧
        ⟨.client, s.sharedKey, .ack true⟩ ∈ now.sealed := by
  intro net
  have hinv := run_inv file h
  refine ⟨hinv.written, hinv.once, hinv.agreed, ?_⟩
  intro before msg after hevents now hinstalls
  rw [hevents, Runs.along_append, Runs.along_cons] at h
  obtain ⟨hbefore, hadmissible, -⟩ := h
  have hnow : Inv cl file now := run_inv file hbefore
  obtain ⟨m, s, hserver, hdecrypt⟩ := toServer_installs hinstalls
  have hauthentic : now.Authentic x s.sharedKey msg := by
    have hadm : Admissible x srv now (.toServer msg) := hadmissible
    simpa only [Admissible, hserver] using hadm
  obtain ⟨author, hsealed⟩ := hauthentic.sealed x hdecrypt
  obtain rfl := hnow.sealing.ack hsealed
  exact ⟨hnow.installs_nil hserver, m, s, hserver, hdecrypt, hsealed⟩

/-! ### A run -/

def kidConfirm : Confirm := ⟨"kid", 22, "SHA256:f", "mia", "HOST"⟩

/-- The JSON of a payload. -/
def SecurePayload.toJson : SecurePayload → Json
  | .pubkey key => .obj [("type", .str "pubkey"), ("pubkey", .str key)]
  | .confirm c => .obj [("type", .str "confirm"), ("hostname", .str c.hostname),
      ("ssh_port", .num c.sshPort.toNat), ("fingerprint", .str c.fingerprint),
      ("username", .str c.username), ("ssh_host_public_key", .str c.sshHostPublicKey)]
  | .ack yes => .obj [("type", .str "ack"), ("confirmed", .bool yes)]

def SecurePayload.vec (payload : SecurePayload) : List UInt8 :=
  Utf8.charsBytes payload.toJson.encode

/-- Base64 and the JSON of the given payloads as they are; for the cryptography
transparent stand-ins: a SPAKE2 whose key is password and transcript, and which
tells the sides apart, and an AEAD that puts key and nonce in front. -/
def sampleCrates (payloads : List SecurePayload) : Crates (List UInt8) where
  parseMessage _ := .error "not read from a stream here"
  payloadToVec := SecurePayload.vec
  parsePayload text := ((payloads.find? fun payload => payload.vec == text).map .ok).getD
    (.error "expected value")
  base64Encode bytes := String.ofList (Base64.encode bytes)
  base64Decode text := ((Base64.decode text.toList).map .ok).getD (.error "Invalid symbol")
  toUppercase c := [c.toUpper]
  startA password _ _ seed :=
    { message := 0x41 :: seed
      finish := fun peer =>
        if peer.head? = some 0x42 then .ok (password ++ 0x41 :: seed ++ peer) else .error "BadSide" }
  startB password _ _ seed :=
    { message := 0x42 :: seed
      finish := fun peer =>
        if peer.head? = some 0x41 then .ok (password ++ peer ++ 0x42 :: seed) else .error "BadSide" }
  hkdf key _ := key
  aeadEncrypt key nonce plaintext := some (key ++ nonce ++ plaintext)
  aeadDecrypt key nonce ciphertext :=
    if (key ++ nonce).isPrefixOf ciphertext then some (ciphertext.drop (key ++ nonce).length)
    else none

def demoCrates : Crates (List UInt8) :=
  sampleCrates [.pubkey "ssh-rsa K", .confirm kidConfirm, .ack true]

def kidServer : Server := ⟨"AB2-KZ2", "7F3", "kid", 22, 600⟩

def parentClient : Client where
  sid := "7F3"
  code := "ab2kz2"
  pubkey := "ssh-rsa K"
  spakeSeed := [1]
  pubkeyNonce := List.replicate 12 1
  ackNonce := List.replicate 12 2

def kidMachine (seed : UInt8) : Machine where
  user := some "mia"
  home := some "/home/mia"
  hostKeyFile _ := .contents "HOST\n"
  sshKeygen _ := .ok "256 SHA256:f (RSA)\n"
  spakeSeed := [seed]
  nonce := List.replicate 12 3

/-- The key of the client's exchange with the second connection. -/
def demoKey : List UInt8 :=
  Utf8.bytes "AB2KZ2" ++ [0x41, 1, 0x42, 8]

def demoSeal (nonce : List UInt8) (payload : SecurePayload) : Message :=
  match encrypt demoCrates demoKey nonce payload with
  | .ok msg => msg
  | .error _ => .error ""

/-- On a first connection the attacker reflects the SPAKE2 message of `serve`; a
second one it relays. -/
def demoEvents : List Event :=
  [.connect (kidMachine 7), .toServer (.hello 1 "7F3" (demoCrates.base64Encode [0x42, 7])),
    .connect (kidMachine 8), .toServer (clientHello demoCrates parentClient),
    .toClient (.spakeMsg (demoCrates.base64Encode [0x42, 8])),
    .toServer (demoSeal parentClient.pubkeyNonce (.pubkey "ssh-rsa K")),
    .toClient (demoSeal (List.replicate 12 3) (.confirm kidConfirm)), .answer "y\n",
    .toServer (demoSeal parentClient.ackNonce (.ack true))]

theorem install_was_confirmed_relayed :
    let net := Runs.run (networkStep demoCrates kidServer parentClient) { authorizedKeys := none }
      demoEvents
    net.installs.length = 1 ∧ ∀ i ∈ net.installs, Agreed parentClient net i :=
  ⟨by decide +kernel,
    (@install_was_confirmed _ demoCrates kidServer parentClient none demoEvents
      (by decide +kernel)).2.2.1⟩

end OmarchyKids.Pairing
