import OmarchyKids.Pairing.AuthorizedKeys
import OmarchyKids.Lib.Runs

/-!
# OmarchyKids.Pairing.Serve

The child's side of pairing: one connection, and the window in which `serve`
accepts connections.

A connection is handled in three steps, one per message read: `onHello`,
`onPayload`, `onAck`. Each says which message is sent first and how the exchange
goes on; `negotiate` strings them together over the connection's stream, and only
its success reaches `authorized_keys`. `installed_only_after_confirmation` is
about whole windows: any sequence of connections, each sending anything.
-/

namespace OmarchyKids.Pairing

/-- What `serve` is started with, and what it makes up for this window. -/
structure Server where
  pairingCode : String
  sid : String
  hostname : String
  sshPort : UInt16
  deadline : Int
  deriving Repr

/-- A message to be written first, and how the exchange goes on after it. -/
structure Reaction (α : Type) where
  send : Option Message := none
  next : Except Failure α

/-- The state between `Confirm` and `Ack`. -/
structure AwaitAck (K : Type) where
  sharedKey : K
  pubkey : String
  confirm : Confirm
  deriving DecidableEq, Repr

variable {K : Type} (x : Crates K) (srv : Server)

/-! ### One connection, message by message -/

/-- Answers with the server's SPAKE2 message before looking at the client's. -/
def onHello (m : Machine) : Message → Reaction K
  | .hello v clientSid clientMsg =>
      if v ≠ 1 then
        { send := some (.error "unsupported protocol version")
          next := bail ("client spoke protocol version " ++ toString v ++ ", expected 1") }
      else if clientSid ≠ srv.sid then
        { send := some (.error "unknown_session")
          next := bail ("client asked for session '" ++ clientSid ++ "', this listener is '" ++
            srv.sid ++ "'") }
      else
        let spake := spakeStartServer x srv.pairingCode m.spakeSeed
        { send := some (.spakeMsg (x.base64Encode spake.message))
          next := do
            let clientMsg ← context "decoding base64" (x.base64Decode clientMsg)
            context "SPAKE2 exchange failed" (spake.finish clientMsg) }
  | _ => { next := bail "expected a Hello message first" }

def hostKeyCandidates : List String :=
  ["/etc/ssh/ssh_host_ed25519_key.pub", "/etc/ssh/ssh_host_rsa_key.pub"]

/-- The first candidate that exists. -/
def readHostPublicKey (m : Machine) : List String → Except Failure String
  | [] =>
      bail ("no readable SSH host key found (tried " ++ ", ".intercalate hostKeyCandidates ++
        "); cannot bind pairing to a host key")
  | path :: rest =>
      match m.hostKeyFile path with
      | .contents text => .ok (String.ofList (Text.trim text.toList))
      | .notFound => readHostPublicKey m rest
      | .failed e => bail ("reading " ++ path ++ ": " ++ e)

def currentUser (m : Machine) : Except Failure String :=
  match m.user.or m.logname with
  | some name => .ok name
  | none => bail ("cannot determine the current user (USER/LOGNAME unset) " ++
      "to report to the Control Center")

/-- The `Confirm` for a public key. Nothing is written yet. -/
def confirmFor (m : Machine) (pubkey : String) : Except Failure Confirm := do
  let fingerprint ← validateAndFingerprint m pubkey
  let username ← currentUser m
  let sshHostPublicKey ← readHostPublicKey m hostKeyCandidates
  return ⟨srv.hostname, srv.sshPort, fingerprint, username, sshHostPublicKey⟩

def onPayload (m : Machine) (sharedKey : K) (msg : Message) : Reaction (AwaitAck K) :=
  match decrypt x sharedKey msg with
  | .error e =>
      -- the peer is not told why
      { send := some (.error "decryption failed")
        next := .error (.context "decrypting the client's payload (likely a wrong code)" e) }
  | .ok (.pubkey pubkey) =>
      match confirmFor srv m pubkey with
      | .error e => { next := .error e }
      | .ok confirm =>
          match encrypt x sharedKey m.nonce (.confirm confirm) with
          | .error e => { next := .error e }
          | .ok msg => { send := some msg, next := .ok ⟨sharedKey, pubkey, confirm⟩ }
  | .ok _ => { next := bail "expected a Pubkey payload" }

/-- The public key to install. -/
def onAck (s : AwaitAck K) (msg : Message) : Except Failure String :=
  match decrypt x s.sharedKey msg with
  | .error e => .error e
  | .ok (.ack true) => .ok s.pubkey
  | .ok (.ack false) => bail "client did not confirm the fingerprint (key was never installed)"
  | .ok _ => bail "expected an Ack payload"

/-! ### One connection as a whole -/

/-- A connection: what can be read from it, which writes fail, and how the machine
answers meanwhile. No message is written twice on a connection. -/
structure Connection where
  input : Stream
  writeError : Message → Option String
  machine : Machine

def Connection.react {α : Type} (c : Connection) (r : Reaction α) : Except Failure α :=
  match r.send.bind c.writeError with
  | some e => bail e
  | none => r.next

/-- `handle_connection` up to the confirmed `Ack`. -/
def negotiate (c : Connection) : Except Failure String := do
  let (hello, r) ← readMessage x c.input
  let sharedKey ← c.react (onHello x srv c.machine hello)
  let (payloadMsg, r) ← readMessage x r
  let s ← c.react (onPayload x srv c.machine sharedKey payloadMsg)
  let (ackMsg, _) ← readMessage x r
  onAck x s ackMsg

def handleConnection (c : Connection) (authorizedKeys : KeysFile) :
    Except Failure Unit × KeysFile :=
  match negotiate x srv c with
  | .error e => (.error e, authorizedKeys)
  | .ok pubkey => writeToAuthorizedKeys c.machine pubkey authorizedKeys

/-! ### The window -/

/-- One `accept` call: a connection, or (at a time) that there is none. -/
structure Poll where
  now : Int
  connection : Option Connection

inductive Status
  | waiting
  /-- `serve` has returned `Ok`. -/
  | paired
  | timedOut
  deriving DecidableEq, Repr

/-- `log` has one entry for each connection handled: "Pairing succeeded." or
"Pairing attempt failed, keeping the window open". -/
structure Window where
  authorizedKeys : KeysFile
  status : Status := .waiting
  log : List (Except Failure Unit) := []

/-- The accept loop of `serve`. -/
def serveStep (w : Window) (p : Poll) : Window :=
  if w.status = .waiting then
    match p.connection with
    | none => if srv.deadline ≤ p.now then { w with status := .timedOut } else w
    | some c =>
        let (result, file) := handleConnection x srv c w.authorizedKeys
        { authorizedKeys := file
          status := if result matches .ok () then .paired else .waiting
          log := w.log ++ [result] }
  else w

/-! ### What a completed exchange has received -/

theorem onHello_eq_ok {m : Machine} {msg : Message} {sharedKey : K}
    (h : (onHello x srv m msg).next = .ok sharedKey) :
    ∃ clientMsg bytes, msg = .hello 1 srv.sid clientMsg ∧ x.base64Decode clientMsg = .ok bytes ∧
      (spakeStartServer x srv.pairingCode m.spakeSeed).finish bytes = .ok sharedKey := by
  cases msg with
  | hello v clientSid clientMsg =>
      unfold onHello at h
      dsimp only at h
      split at h
      · cases h
      · next hv =>
          split at h
          · cases h
          · next hsid =>
              obtain ⟨bytes, hdecode, hfinish⟩ := bind_eq_ok.mp h
              obtain rfl : v = 1 := not_not.mp hv
              obtain rfl : clientSid = srv.sid := not_not.mp hsid
              exact ⟨clientMsg, bytes, rfl, context_eq_ok.mp hdecode, context_eq_ok.mp hfinish⟩
  | spakeMsg _ => cases h
  | encrypted _ _ => cases h
  | error _ => cases h

theorem confirmFor_eq_ok {m : Machine} {pubkey : String} {confirm : Confirm}
    (h : confirmFor srv m pubkey = .ok confirm) :
    validateAndFingerprint m pubkey = .ok confirm.fingerprint := by
  obtain ⟨fingerprint, hfingerprint, h⟩ := bind_eq_ok.mp h
  obtain ⟨username, -, h⟩ := bind_eq_ok.mp h
  obtain ⟨hostKey, -, h⟩ := bind_eq_ok.mp h
  cases h
  exact hfingerprint

theorem onPayload_eq_ok {m : Machine} {sharedKey : K} {msg : Message} {s : AwaitAck K}
    (h : (onPayload x srv m sharedKey msg).next = .ok s) :
    s.sharedKey = sharedKey ∧ decrypt x sharedKey msg = .ok (.pubkey s.pubkey) ∧
      confirmFor srv m s.pubkey = .ok s.confirm ∧
      ∃ sealed, encrypt x sharedKey m.nonce (.confirm s.confirm) = .ok sealed ∧
        (onPayload x srv m sharedKey msg).send = some sealed := by
  unfold onPayload at h ⊢
  split at h
  · cases h
  · next pubkey hdecrypt =>
      split at h
      · cases h
      · next confirm hconfirm =>
          split at h
          · cases h
          · next sealed hsealed =>
              cases h
              simp only [hdecrypt, hconfirm, hsealed]
              exact ⟨trivial, trivial, trivial, sealed, rfl, rfl⟩
  · cases h

theorem onAck_eq_ok {s : AwaitAck K} {msg : Message} {pubkey : String} :
    onAck x s msg = .ok pubkey ↔
      decrypt x s.sharedKey msg = .ok (.ack true) ∧ pubkey = s.pubkey := by
  unfold onAck
  constructor
  · intro h
    split at h
    · cases h
    · next hdecrypt =>
        cases h
        exact ⟨hdecrypt, rfl⟩
    · cases h
    · cases h
  · intro h
    obtain ⟨hdecrypt, rfl⟩ := h
    rw [hdecrypt]

/-- The connection delivered, in this order: a `Hello` of version 1 for this
session; a payload that decrypts, under the key of the SPAKE2 exchange, to an
acceptable public key; and one that decrypts under the same key to a confirming
`Ack`. -/
def Delivered (c : Connection) (pubkey : String) : Prop :=
  ∃ clientMsg bytes sharedKey payloadMsg ackMsg fingerprint r₁ r₂ r₃,
    readMessage x c.input = .ok (.hello 1 srv.sid clientMsg, r₁) ∧
    x.base64Decode clientMsg = .ok bytes ∧
    (spakeStartServer x srv.pairingCode c.machine.spakeSeed).finish bytes = .ok sharedKey ∧
    readMessage x r₁ = .ok (payloadMsg, r₂) ∧
    decrypt x sharedKey payloadMsg = .ok (.pubkey pubkey) ∧
    validateAndFingerprint c.machine pubkey = .ok fingerprint ∧
    readMessage x r₂ = .ok (ackMsg, r₃) ∧
    decrypt x sharedKey ackMsg = .ok (.ack true)

variable {x srv}

theorem Connection.react_eq_ok {α : Type} {c : Connection} {r : Reaction α} {a : α}
    (h : c.react r = .ok a) : r.next = .ok a := by
  unfold Connection.react at h
  split at h
  · cases h
  · exact h

theorem negotiate_delivered {c : Connection} {pubkey : String}
    (h : negotiate x srv c = .ok pubkey) : Delivered x srv c pubkey := by
  unfold negotiate at h
  obtain ⟨⟨hello, r₁⟩, hread₁, h⟩ := bind_eq_ok.mp h
  obtain ⟨sharedKey, hhello, h⟩ := bind_eq_ok.mp h
  obtain ⟨⟨payloadMsg, r₂⟩, hread₂, h⟩ := bind_eq_ok.mp h
  obtain ⟨s, hpayload, h⟩ := bind_eq_ok.mp h
  obtain ⟨⟨ackMsg, r₃⟩, hread₃, hack⟩ := bind_eq_ok.mp h
  obtain ⟨clientMsg, bytes, rfl, hdecode, hfinish⟩ :=
    onHello_eq_ok x srv (Connection.react_eq_ok hhello)
  obtain ⟨rfl, hpubkey, hconfirm, -⟩ := onPayload_eq_ok x srv (Connection.react_eq_ok hpayload)
  obtain ⟨hconfirmed, rfl⟩ := (onAck_eq_ok x).mp hack
  exact ⟨clientMsg, bytes, s.sharedKey, payloadMsg, ackMsg, s.confirm.fingerprint, r₁, r₂, r₃,
    hread₁, hdecode, hfinish, hread₂, hpubkey, confirmFor_eq_ok srv hconfirm, hread₃, hconfirmed⟩

/-- What one connection does to `authorized_keys`. -/
theorem handleConnection_keys (c : Connection) (file : KeysFile) :
    (handleConnection x srv c file).2 = file ∨
      ∃ pubkey, Delivered x srv c pubkey ∧
        AddsEntry pubkey file (handleConnection x srv c file).2 := by
  unfold handleConnection
  cases h : negotiate x srv c with
  | error e => exact .inl rfl
  | ok pubkey =>
      exact .inr ⟨pubkey, negotiate_delivered h, writeToAuthorizedKeys_adds c.machine pubkey file⟩

theorem handleConnection_ok {c : Connection} {file : KeysFile}
    (h : (handleConnection x srv c file).1 = .ok ()) : ∃ pubkey, Delivered x srv c pubkey := by
  unfold handleConnection at h
  cases hneg : negotiate x srv c with
  | error e =>
      rw [hneg] at h
      cases h
  | ok pubkey => exact ⟨pubkey, negotiate_delivered hneg⟩

/-! ### What a whole window does -/

variable (x srv) in
/-- The window after the given `accept` calls. -/
def serve (authorizedKeys : KeysFile) (polls : List Poll) : Window :=
  Runs.run (serveStep x srv) { authorizedKeys := authorizedKeys } polls

theorem serve_concat (file : KeysFile) (polls : List Poll) (p : Poll) :
    serve x srv file (polls ++ [p]) = serveStep x srv (serve x srv file polls) p :=
  Runs.run_concat _ polls p

/-- Once `serve` has returned, nothing happens any more. -/
theorem serveStep_returned {w : Window} (h : w.status ≠ .waiting) (p : Poll) :
    serveStep x srv w p = w := by
  rw [serveStep, if_neg h]

theorem run_returned {w : Window} (h : w.status ≠ .waiting) (polls : List Poll) :
    Runs.run (serveStep x srv) w polls = w :=
  Runs.run_invariant (I := (· = w)) rfl (fun _ p heq => by rw [heq, serveStep_returned h]) polls

theorem serveStep_connection {w : Window} {p : Poll} {c : Connection} (h : w.status = .waiting)
    (hc : p.connection = some c) :
    serveStep x srv w p =
      { authorizedKeys := (handleConnection x srv c w.authorizedKeys).2
        status :=
          if (handleConnection x srv c w.authorizedKeys).1 matches .ok () then .paired else .waiting
        log := w.log ++ [(handleConnection x srv c w.authorizedKeys).1] } := by
  rw [serveStep, if_pos h, hc]

/-- The window closes successfully on a connection that was handled without an
error, and on nothing else. -/
theorem serveStep_paired_iff {w : Window} {p : Poll} (h : w.status = .waiting) :
    (serveStep x srv w p).status = .paired ↔
      ∃ c, p.connection = some c ∧ (handleConnection x srv c w.authorizedKeys).1 = .ok () := by
  cases hc : p.connection with
  | none =>
      rw [serveStep, if_pos h, hc]
      dsimp only
      split <;> simp [h]
  | some c =>
      rw [serveStep_connection h hc]
      cases hresult : (handleConnection x srv c w.authorizedKeys).1 with
      | error e => simp [hresult]
      | ok u => simp [hresult]

/-- What one `accept` call does to `authorized_keys`. -/
theorem serveStep_keys (w : Window) (p : Poll) :
    (serveStep x srv w p).authorizedKeys = w.authorizedKeys ∨
      ∃ c pubkey, p.connection = some c ∧ w.status = .waiting ∧ Delivered x srv c pubkey ∧
        AddsEntry pubkey w.authorizedKeys (serveStep x srv w p).authorizedKeys := by
  by_cases h : w.status = .waiting
  · cases hc : p.connection with
    | none =>
        left
        rw [serveStep, if_pos h, hc]
        dsimp only
        split <;> rfl
    | some c =>
        rw [serveStep_connection h hc]
        rcases @handleConnection_keys K x srv c w.authorizedKeys with hsame | hadds
        · exact .inl hsame
        · obtain ⟨pubkey, hdelivered, hadds⟩ := hadds
          exact .inr ⟨c, pubkey, rfl, h, hdelivered, hadds⟩
  · exact .inl (by rw [serveStep_returned h])

/-- A window that was closed successfully was closed by one of its connections. -/
theorem paired_of_connection (file : KeysFile) (polls : List Poll)
    (h : (serve x srv file polls).status = .paired) :
    ∃ before p after c, polls = before ++ p :: after ∧
      (serve x srv file before).status = .waiting ∧ p.connection = some c ∧
      (handleConnection x srv c (serve x srv file before).authorizedKeys).1 = .ok () := by
  induction polls using List.reverseRecOn with
  | nil => cases h
  | append_singleton polls p ih =>
      by_cases hwaiting : (serve x srv file polls).status = .waiting
      · rw [serve_concat, serveStep_paired_iff hwaiting] at h
        obtain ⟨c, hc, hok⟩ := h
        exact ⟨polls, p, [], c, rfl, hwaiting, hc, hok⟩
      · -- it was closed before
        rw [serve_concat, serveStep_returned hwaiting] at h
        obtain ⟨before, q, after, c, rfl, hrest⟩ := ih h
        exact ⟨before, q, after ++ [p], c, by simp, hrest⟩

/-- A whole pairing window. `authorized_keys` changes only by a connection that
delivered a confirmed public key, by at most one entry for that key; `serve`
succeeds exactly when handling such a connection did, handles none after it, and
goes on after every failing one. -/
theorem installed_only_after_confirmation (file : KeysFile) (polls : List Poll) :
    (∀ before p after, polls = before ++ p :: after →
      (serve x srv file (before ++ [p])).authorizedKeys =
          (serve x srv file before).authorizedKeys ∨
        ∃ c pubkey, p.connection = some c ∧ (serve x srv file before).status = .waiting ∧
          Delivered x srv c pubkey ∧
          AddsEntry pubkey (serve x srv file before).authorizedKeys
            (serve x srv file (before ++ [p])).authorizedKeys) ∧
    ((serve x srv file polls).status = .paired ↔
      ∃ before p after c pubkey, polls = before ++ p :: after ∧
        (serve x srv file before).status = .waiting ∧ p.connection = some c ∧
        Delivered x srv c pubkey ∧
        (handleConnection x srv c (serve x srv file before).authorizedKeys).1 = .ok ()) ∧
    (∀ before after, polls = before ++ after → (serve x srv file before).status = .paired →
      serve x srv file polls = serve x srv file before) ∧
    (∀ before p after c e, polls = before ++ p :: after →
      (serve x srv file before).status = .waiting → p.connection = some c →
      (handleConnection x srv c (serve x srv file before).authorizedKeys).1 = .error e →
      (serve x srv file (before ++ [p])).status = .waiting) := by
  refine ⟨?keys, ⟨?closed, ?closes⟩, ?last, ?goesOn⟩
  case keys =>
    intro before p after _
    rw [serve_concat]
    exact serveStep_keys (serve x srv file before) p
  case closed =>
    intro h
    obtain ⟨before, p, after, c, hpolls, hwaiting, hc, hok⟩ := paired_of_connection file polls h
    obtain ⟨pubkey, hdelivered⟩ := handleConnection_ok hok
    exact ⟨before, p, after, c, pubkey, hpolls, hwaiting, hc, hdelivered, hok⟩
  case closes =>
    intro h
    obtain ⟨before, p, after, c, pubkey, rfl, hwaiting, hc, -, hok⟩ := h
    have hpaired := (serveStep_paired_iff hwaiting).mpr ⟨c, hc, hok⟩
    rw [serve, Runs.run_append, Runs.run_cons, run_returned]
    · exact hpaired
    · intro hstill
      have heq := hstill.symm.trans hpaired
      cases heq
  case last =>
    intro before after hpolls hpaired
    rw [hpolls, serve, Runs.run_append]
    refine run_returned ?_ after
    intro hstill
    have heq := hstill.symm.trans hpaired
    cases heq
  case goesOn =>
    intro before p after c e _ hwaiting hc herror
    rw [serve_concat, serveStep_connection hwaiting hc, herror]
    rfl

end OmarchyKids.Pairing
