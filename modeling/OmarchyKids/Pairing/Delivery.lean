import OmarchyKids.Pairing.KeyLines

/-!
# OmarchyKids.Pairing.Delivery

One `pair` and one `handle_connection` on a connection that loses messages.

Both ends are honest here and nobody else writes to the connection. But any
message may get lost, either end may fail at any point, and so may every step of
the child's machine. The last message of the exchange is the client's `Ack`. The
client reports success once it has sent it; the child still has to receive it,
and to write `authorized_keys` then. `reported_key_is_installed_iff` says when the
key of a reported success is installed, that is, when its restricted entry is a line
of the file: at every point of every such exchange, by whether these two things have
happened and by how the file ended before.
-/

namespace OmarchyKids.Pairing

open Lines

/-! ### The two ends -/

/-- Where the handler is. -/
inductive HandlerPhase (K : Type)
  | awaitHello
  | awaitPayload (sharedKey : K)
  | awaitAck (s : AwaitAck K)
  | ended (result : Except Failure Unit)
  deriving DecidableEq

/-- Where `pair` is; it starts by sending its `Hello`. -/
inductive PairPhase (K : Type)
  | awaitReply
  | awaitConfirm (sharedKey : K)
  /-- The fingerprint is on the screen. -/
  | shown (sharedKey : K) (c : Confirm)
  /-- `PAIR_RESULT` is printed, on which the dialog records the host, and the process
  exits with 0. -/
  | reported (c : Confirm)
  | failed
  deriving DecidableEq

/-- The connection: its two ends, and the messages on the wire, oldest first. -/
structure Link (K : Type) where
  handler : HandlerPhase K := .awaitHello
  client : PairPhase K := .awaitReply
  toServer : List Message := []
  toClient : List Message := []
  authorizedKeys : KeysFile

inductive LinkEvent
  /-- The handler reads the next message; which of its writes fail. -/
  | serverReads (writeError : Message → Option String)
  /-- A read error, a time-out, the end of the process. -/
  | serverFails (e : Failure)
  | clientReads (writeError : Message → Option String)
  /-- The answer to the fingerprint question, not looked at with `--yes`; whether
  the `known_hosts` file can be written afterwards. -/
  | answer (line : String) (writeError : Message → Option String) (knownHosts : Option String)
  | clientFails
  | loseToServer (i : Nat)
  | loseToClient (i : Nat)

variable {K : Type} (x : Crates K) (srv : Server) (cl : Client) (m : Machine)

namespace Link

/-- The handler writes its message, and goes on. -/
def react {α : Type} (link : Link K) (writeError : Message → Option String) (r : Reaction α)
    (next : α → HandlerPhase K) : Link K :=
  match r.send.bind writeError with
  | some e => { link with handler := .ended (bail e) }
  | none =>
      { link with
        handler :=
          match r.next with
          | .ok a => next a
          | .error e => .ended (.error e)
        toClient := link.toClient ++ r.send.toList }

def serverReads (link : Link K) (writeError : Message → Option String) : Link K :=
  match link.toServer with
  | [] => link
  | msg :: rest =>
      let read := { link with toServer := rest }
      match link.handler with
      | .awaitHello => read.react writeError (onHello x srv m msg) .awaitPayload
      | .awaitPayload key => read.react writeError (onPayload x srv m key msg) .awaitAck
      | .awaitAck s =>
          match onAck x s msg with
          | .error e => { read with handler := .ended (.error e) }
          | .ok pubkey =>
              let (result, file) := writeToAuthorizedKeys m pubkey link.authorizedKeys
              { read with handler := .ended result, authorizedKeys := file }
      | .ended _ => link

def clientReads (link : Link K) (writeError : Message → Option String) : Link K :=
  match link.toClient with
  | [] => link
  | msg :: rest =>
      let read := { link with toClient := rest }
      match link.client with
      | .awaitReply =>
          match onReply x cl msg with
          | .error _ => { read with client := .failed }
          | .ok (key, pubkeyMsg) =>
              match writeError pubkeyMsg with
              | some _ => { read with client := .failed }
              | none =>
                  { read with
                    client := .awaitConfirm key
                    toServer := link.toServer ++ [pubkeyMsg] }
      | .awaitConfirm key =>
          match onConfirm x key msg with
          | .error _ => { read with client := .failed }
          | .ok c => { read with client := .shown key c }
      | _ => link

def answer (link : Link K) (line : String) (writeError : Message → Option String)
    (knownHosts : Option String) : Link K :=
  match link.client with
  | .shown key c =>
      match acknowledge x cl key line with
      | .error _ => { link with client := .failed }
      | .ok ack =>
          match writeError ack with
          | some _ => { link with client := .failed }
          | none =>
              { link with
                client := if confirms cl line && knownHosts.isNone then .reported c else .failed
                toServer := link.toServer ++ [ack] }
  | _ => link

end Link

def linkStep (link : Link K) : LinkEvent → Link K
  | .serverReads writeError => link.serverReads x srv m writeError
  | .serverFails e =>
      match link.handler with
      | .ended _ => link
      | _ => { link with handler := .ended (.error e) }
  | .clientReads writeError => link.clientReads x cl writeError
  | .answer line writeError knownHosts => link.answer x cl line writeError knownHosts
  | .clientFails =>
      match link.client with
      | .reported _ => link
      | _ => { link with client := .failed }
  | .loseToServer i => { link with toServer := link.toServer.eraseIdx i }
  | .loseToClient i => { link with toClient := link.toClient.eraseIdx i }

/-- The connection as `pair` has opened it. -/
def Link.start (file : KeysFile) : Link K where
  toServer := [clientHello x cl]
  authorizedKeys := file

/-! ### The handler of the link is `handle_connection` -/

variable {x srv cl m}

/-- What the handler makes of its writes is what `handle_connection` makes of them. -/
theorem react_handler {α : Type} (c : Connection) (r : Reaction α) (link : Link K)
    (next : α → HandlerPhase K) :
    (link.react c.writeError r next).handler =
        (match c.react r with
          | .ok a => next a
          | .error e => .ended (.error e)) ∧
      (link.react c.writeError r next).toServer = link.toServer ∧
      (link.react c.writeError r next).authorizedKeys = link.authorizedKeys := by
  rw [Link.react, Connection.react]
  cases r.send.bind c.writeError with
  | some e => exact ⟨rfl, rfl, rfl⟩
  | none => exact ⟨rfl, rfl, rfl⟩

theorem run_reads_ended {result : Except Failure Unit} {events : List LinkEvent} {link : Link K}
    (h : link.handler = .ended result) (hevents : ∀ e ∈ events, ∃ w, e = .serverReads w) :
    Runs.run (linkStep x srv cl m) link events = link := by
  induction events with
  | nil => rfl
  | cons e events ih =>
      obtain ⟨w, rfl⟩ := hevents e List.mem_cons_self
      have hstay : linkStep x srv cl m link (.serverReads w) = link := by
        rw [linkStep, Link.serverReads]
        split
        · rfl
        · rw [h]
      rw [Runs.run_cons, hstay]
      exact ih fun e' he' => hevents e' (List.mem_cons_of_mem _ he')

/-- `negotiate` on a connection that has all three messages to read. -/
theorem negotiate_of_messages {c : Connection} {hello payload ack : Message} {r₁ r₂ r₃ : Stream}
    (h₁ : readMessage x c.input = .ok (hello, r₁)) (h₂ : readMessage x r₁ = .ok (payload, r₂))
    (h₃ : readMessage x r₂ = .ok (ack, r₃)) :
    negotiate x srv c =
      match c.react (onHello x srv c.machine hello) with
      | .error e => .error e
      | .ok key =>
          match c.react (onPayload x srv c.machine key payload) with
          | .error e => .error e
          | .ok s => onAck x s ack := by
  rw [negotiate, h₁]
  simp only [bind, Except.bind, h₂, h₃]
  cases c.react (onHello x srv c.machine hello) with
  | error e => rfl
  | ok key =>
      dsimp only
      cases c.react (onPayload x srv c.machine key payload) with
      | error e => rfl
      | ok s => rfl

/-- A handler that finds the three messages of a connection on the wire does what
`handle_connection` does on that connection. -/
theorem serverReads_handleConnection {c : Connection} {hello payload ack : Message}
    {r₁ r₂ r₃ : Stream} (h₁ : readMessage x c.input = .ok (hello, r₁))
    (h₂ : readMessage x r₁ = .ok (payload, r₂)) (h₃ : readMessage x r₂ = .ok (ack, r₃))
    {link : Link K} (hhandler : link.handler = .awaitHello)
    (hwire : link.toServer = [hello, payload, ack]) :
    let link' := Runs.run (linkStep x srv cl c.machine) link
      (List.replicate 3 (.serverReads c.writeError))
    link'.handler = .ended (handleConnection x srv c link.authorizedKeys).1 ∧
      link'.authorizedKeys = (handleConnection x srv c link.authorizedKeys).2 := by
  have hreads : ∀ n, ∀ e ∈ List.replicate n (LinkEvent.serverReads c.writeError),
      ∃ w, e = .serverReads w := fun n e he => ⟨_, List.eq_of_mem_replicate he⟩
  -- the first message
  have hone := react_handler c (onHello x srv c.machine hello) { link with toServer := [payload, ack] }
    .awaitPayload
  have hstep₁ : linkStep x srv cl c.machine link (.serverReads c.writeError) =
      ({ link with toServer := [payload, ack] } : Link K).react c.writeError
        (onHello x srv c.machine hello) .awaitPayload := by
    rw [linkStep, Link.serverReads, hwire, hhandler]
  intro link'
  simp only [link', handleConnection, negotiate_of_messages h₁ h₂ h₃]
  rw [List.replicate_succ, Runs.run_cons, hstep₁]
  generalize ({ link with toServer := [payload, ack] } : Link K).react c.writeError
    (onHello x srv c.machine hello) .awaitPayload = link₁ at hone
  obtain ⟨hhandler₁, hwire₁, hkeys₁⟩ := hone
  cases hhello : c.react (onHello x srv c.machine hello) with
  | error e =>
      rw [hhello] at hhandler₁
      rw [run_reads_ended hhandler₁ (hreads 2)]
      exact ⟨hhandler₁, hkeys₁⟩
  | ok key =>
      rw [hhello] at hhandler₁
      dsimp only at hhandler₁ hwire₁ hkeys₁ ⊢
      -- the second
      have htwo := react_handler c (onPayload x srv c.machine key payload)
        { link₁ with toServer := [ack] } .awaitAck
      have hstep₂ : linkStep x srv cl c.machine link₁ (.serverReads c.writeError) =
          ({ link₁ with toServer := [ack] } : Link K).react c.writeError
            (onPayload x srv c.machine key payload) .awaitAck := by
        rw [linkStep, Link.serverReads, hwire₁, hhandler₁]
      rw [List.replicate_succ, Runs.run_cons, hstep₂]
      generalize ({ link₁ with toServer := [ack] } : Link K).react c.writeError
        (onPayload x srv c.machine key payload) .awaitAck = link₂ at htwo
      obtain ⟨hhandler₂, hwire₂, hkeys₂⟩ := htwo
      dsimp only at hwire₂ hkeys₂
      have hkeys : link₂.authorizedKeys = link.authorizedKeys := hkeys₂.trans hkeys₁
      cases hpayload : c.react (onPayload x srv c.machine key payload) with
      | error e =>
          rw [hpayload] at hhandler₂
          rw [run_reads_ended hhandler₂ (hreads 1)]
          exact ⟨hhandler₂, hkeys⟩
      | ok s =>
          rw [hpayload] at hhandler₂
          dsimp only at hhandler₂ ⊢
          -- the third
          rw [List.replicate_succ, List.replicate_zero, Runs.run_cons, Runs.run_nil, linkStep,
            Link.serverReads, hwire₂, hhandler₂]
          dsimp only
          cases onAck x s ack with
          | error e => exact ⟨rfl, hkeys⟩
          | ok pubkey =>
              rw [← hkeys]
              exact ⟨rfl, rfl⟩

/-! ### What the exchange relies on -/

section Exchange

variable (x srv cl m)

/-- The key the client derives from the child's SPAKE2 message. -/
def clientKey : Except String K :=
  (spakeStartClient x cl.code cl.spakeSeed).finish
    (spakeStartServer x srv.pairingCode m.spakeSeed).message

def serverKey : Except String K :=
  (spakeStartServer x srv.pairingCode m.spakeSeed).finish
    (spakeStartClient x cl.code cl.spakeSeed).message

/-- What the client encrypts on its way to a success, each payload with its nonce. -/
def Client.letters : List (List UInt8 × SecurePayload) :=
  [(cl.pubkeyNonce, .pubkey cl.pubkey), (cl.ackNonce, .ack true)]

/-- The crates keep their promises on what the client sends: texts and payloads come
back as they were, what is sealed opens again, and not under another key. Nonces
have the length of a nonce. -/
structure Sound : Prop where
  base64 : ∀ bytes, x.base64Decode (x.base64Encode bytes) = .ok bytes
  json : ∀ letter ∈ cl.letters, x.parsePayload (x.payloadToVec letter.2) = .ok letter.2
  nonces : ∀ letter ∈ cl.letters, letter.1.length = nonceLen
  aead : ∀ key nonce text ciphertext, x.aeadEncrypt key nonce text = some ciphertext →
    x.aeadDecrypt key nonce ciphertext = some text
  wrongKey : ∀ kc ks, clientKey x srv cl m = .ok kc → serverKey x srv cl m = .ok ks →
    ∀ letter ∈ cl.letters, ∀ ciphertext text,
      x.aeadEncrypt (deriveAeadKey x kc) letter.1 (x.payloadToVec letter.2) = some ciphertext →
      x.aeadDecrypt (deriveAeadKey x ks) letter.1 ciphertext = some text →
      deriveAeadKey x ks = deriveAeadKey x kc

variable {x srv cl m}

theorem encrypt_eq_ok {key : K} {nonce : List UInt8} {payload : SecurePayload} {msg : Message} :
    encrypt x key nonce payload = .ok msg ↔
      ∃ ciphertext, x.aeadEncrypt (deriveAeadKey x key) nonce (x.payloadToVec payload) =
          some ciphertext ∧
        msg = .encrypted (x.base64Encode nonce) (x.base64Encode ciphertext) := by
  rw [encrypt]
  cases x.aeadEncrypt (deriveAeadKey x key) nonce (x.payloadToVec payload) with
  | none => simp [bail]
  | some ciphertext => simp [eq_comm]

theorem onReply_eq_ok {msg : Message} {key : K} {pubkeyMsg : Message}
    (h : onReply x cl msg = .ok (key, pubkeyMsg)) :
    ∃ text bytes, msg = .spakeMsg text ∧ x.base64Decode text = .ok bytes ∧
      (spakeStartClient x cl.code cl.spakeSeed).finish bytes = .ok key ∧
      encrypt x key cl.pubkeyNonce (.pubkey cl.pubkey) = .ok pubkeyMsg := by
  cases msg with
  | spakeMsg text =>
      obtain ⟨bytes, hdecode, h⟩ := bind_eq_ok.mp h
      obtain ⟨key', hfinish, h⟩ := bind_eq_ok.mp h
      obtain ⟨msg', hencrypt, h⟩ := bind_eq_ok.mp h
      cases h
      exact ⟨text, bytes, rfl, context_eq_ok.mp hdecode, context_eq_ok.mp hfinish, hencrypt⟩
  | hello v sid text => cases h
  | encrypted nonce ciphertext => cases h
  | error reason => cases h

namespace Sound

variable {letter : List UInt8 × SecurePayload} {kc ks : K} {msg : Message}

/-- How a message of the client decrypts, depending on what its ciphertext opens to. -/
theorem decrypt_sealed (h : Sound x srv cl m) (hletter : letter ∈ cl.letters)
    {ciphertext : List UInt8}
    (hmsg : msg = .encrypted (x.base64Encode letter.1) (x.base64Encode ciphertext))
    {payload : SecurePayload} :
    decrypt x ks msg = .ok payload ↔
      ∃ text, x.aeadDecrypt (deriveAeadKey x ks) letter.1 ciphertext = some text ∧
        x.parsePayload text = .ok payload := by
  subst hmsg
  simp only [decrypt, h.base64, context, bind, Except.bind, h.nonces letter hletter, ne_eq,
    not_true_eq_false, if_false]
  cases x.aeadDecrypt (deriveAeadKey x ks) letter.1 ciphertext with
  | none => simp [bail]
  | some text =>
      cases hparse : x.parsePayload text with
      | error e => simp [bail, hparse]
      | ok payload' => simp [hparse]

/-- Under the client's own key a message of the client decrypts to its payload. -/
theorem opens (h : Sound x srv cl m) (hletter : letter ∈ cl.letters)
    (hkeys : deriveAeadKey x ks = deriveAeadKey x kc)
    (hmsg : encrypt x kc letter.1 letter.2 = .ok msg) : decrypt x ks msg = .ok letter.2 := by
  obtain ⟨ciphertext, hsealed, rfl⟩ := encrypt_eq_ok.mp hmsg
  refine (h.decrypt_sealed hletter rfl).mpr ⟨x.payloadToVec letter.2, ?_, h.json letter hletter⟩
  rw [hkeys]
  exact h.aead _ _ _ _ hsealed

/-- If a message of the client decrypts for the server, the two have one key. -/
theorem opened (h : Sound x srv cl m) (hletter : letter ∈ cl.letters)
    (hkc : clientKey x srv cl m = .ok kc) (hks : serverKey x srv cl m = .ok ks)
    (hmsg : encrypt x kc letter.1 letter.2 = .ok msg) {payload : SecurePayload}
    (hopened : decrypt x ks msg = .ok payload) :
    payload = letter.2 ∧ deriveAeadKey x ks = deriveAeadKey x kc := by
  obtain ⟨ciphertext, hsealed, hwire⟩ := encrypt_eq_ok.mp hmsg
  obtain ⟨text, htext, -⟩ := (h.decrypt_sealed hletter hwire).mp hopened
  have hkeys := h.wrongKey kc ks hkc hks letter hletter ciphertext text hsealed htext
  have hown := h.opens hletter hkeys hmsg
  rw [hown] at hopened
  exact ⟨(Except.ok.inj hopened).symm, hkeys⟩

end Sound

/-! ### How far the exchange has got -/

/-- How many messages the handler has acted on, while it goes on. -/
def HandlerPhase.consumed : HandlerPhase K → Option Nat
  | .awaitHello => some 0
  | .awaitPayload _ => some 1
  | .awaitAck _ => some 2
  | .ended _ => none

/-- The handler reads what comes after the `Confirm`. -/
def ReadsAck (link : Link K) : LinkEvent → Prop
  | .serverReads _ => (∃ s, link.handler = .awaitAck s) ∧ link.toServer ≠ []
  | _ => False

variable (x srv cl m) in
/-- What a client has sent that has not failed. -/
inductive Sent : PairPhase K → List Message → Prop
  | hello : Sent .awaitReply [clientHello x cl]
  | pubkey {phase : PairPhase K} {key : K} {pubkeyMsg : Message} :
      phase = .awaitConfirm key ∨ (∃ c, phase = .shown key c) →
      clientKey x srv cl m = .ok key →
      encrypt x key cl.pubkeyNonce (.pubkey cl.pubkey) = .ok pubkeyMsg →
      Sent phase [clientHello x cl, pubkeyMsg]
  | ack {c : Confirm} {key : K} {pubkeyMsg ack : Message} :
      clientKey x srv cl m = .ok key →
      encrypt x key cl.pubkeyNonce (.pubkey cl.pubkey) = .ok pubkeyMsg →
      encrypt x key cl.ackNonce (.ack true) = .ok ack →
      Sent (.reported c) [clientHello x cl, pubkeyMsg, ack]

variable (x srv cl m) in
/-- The other end, given what the client has sent and whether its `Ack` has been
`read`: only what the handler has not acted on can still be on the wire, the two
ends share a key once the public key has come through, and `authorized_keys` is
written exactly when the `Ack` is read. -/
structure Progress (file : KeysFile) (sent : List Message) (read : Prop) (link : Link K) : Prop where
  wire : ∀ n, link.handler.consumed = some n → n ≤ sent.length ∧ link.toServer.Sublist (sent.drop n)
  replies : ∀ text, Message.spakeMsg text ∈ link.toClient →
    text = x.base64Encode (spakeStartServer x srv.pairingCode m.spakeSeed).message
  payload : ∀ key, link.handler = .awaitPayload key → serverKey x srv cl m = .ok key
  ack : ∀ s, link.handler = .awaitAck s → s.pubkey = cl.pubkey ∧
    (∃ fingerprint, validateAndFingerprint m cl.pubkey = .ok fingerprint) ∧
    ∀ kc, clientKey x srv cl m = .ok kc → deriveAeadKey x s.sharedKey = deriveAeadKey x kc
  unread : ∀ n, link.handler.consumed = some n → ¬ read
  accepted : read → ∃ fingerprint, validateAndFingerprint m cl.pubkey = .ok fingerprint
  written : read → link.authorizedKeys = (writeToAuthorizedKeys m cl.pubkey file).2
  untouched : ¬ read → link.authorizedKeys = file

/-- The only `Hello` is the first message. -/
theorem Sent.hello_mem {phase : PairPhase K} {sent : List Message} (h : Sent x srv cl m phase sent)
    {v : UInt8} {sid text : String} (hmem : Message.hello v sid text ∈ sent) :
    Message.hello v sid text = clientHello x cl := by
  have hsealed : ∀ {key : K} {nonce : List UInt8} {payload : SecurePayload} {msg : Message},
      encrypt x key nonce payload = .ok msg → Message.hello v sid text ≠ msg := by
    intro key nonce payload msg hmsg heq
    obtain ⟨ciphertext, -, rfl⟩ := encrypt_eq_ok.mp hmsg
    cases heq
  cases h with
  | hello => exact List.mem_singleton.mp hmem
  | pubkey _ _ hpubkey =>
      simpa [hsealed hpubkey] using hmem
  | ack _ hpubkey hack =>
      simpa [hsealed hpubkey, hsealed hack] using hmem

/-- After its `Hello` the client sends its letters. -/
theorem Sent.letter {phase : PairPhase K} {sent : List Message} (h : Sent x srv cl m phase sent)
    {msg : Message} (hmem : msg ∈ sent.drop 1) :
    ∃ kc, clientKey x srv cl m = .ok kc ∧
      ∃ letter ∈ cl.letters, encrypt x kc letter.1 letter.2 = .ok msg := by
  cases h with
  | hello => cases hmem
  | pubkey _ hkey hpubkey =>
      obtain rfl := List.mem_singleton.mp hmem
      exact ⟨_, hkey, _, List.mem_cons_self, hpubkey⟩
  | ack hkey hpubkey hack =>
      rcases List.mem_cons.mp hmem with rfl | hmem
      · exact ⟨_, hkey, _, List.mem_cons_self, hpubkey⟩
      · obtain rfl := List.mem_singleton.mp hmem
        exact ⟨_, hkey, _, List.mem_cons_of_mem _ List.mem_cons_self, hack⟩

/-- What the client sends third is its `Ack`, and it has reported success then. -/
theorem Sent.third {phase : PairPhase K} {sent : List Message} (h : Sent x srv cl m phase sent)
    {msg : Message} (hmem : msg ∈ sent.drop 2) :
    ∃ kc, clientKey x srv cl m = .ok kc ∧ encrypt x kc cl.ackNonce (.ack true) = .ok msg := by
  cases h with
  | hello => cases hmem
  | pubkey _ _ _ => cases hmem
  | ack hkey _ hack =>
      obtain rfl := List.mem_singleton.mp hmem
      exact ⟨_, hkey, hack⟩

/-- Reading takes the first message off the wire, and what is left of the sent ones. -/
theorem sublist_drop_succ {msg : Message} {rest sent : List Message} {n : Nat}
    (h : (msg :: rest).Sublist (sent.drop n)) :
    msg ∈ sent.drop n ∧ n + 1 ≤ sent.length ∧ rest.Sublist (sent.drop (n + 1)) := by
  have hmem : msg ∈ sent.drop n := h.subset List.mem_cons_self
  have hlength : n < sent.length := by
    by_contra hle
    rw [List.drop_eq_nil_of_le (Nat.le_of_not_lt hle)] at hmem
    cases hmem
  refine ⟨hmem, hlength, ?_⟩
  have htail := h.tail
  rwa [List.tail_cons, List.tail_drop] at htail

/-! ### One step -/

namespace Sent

variable {phase : PairPhase K} {sent : List Message} {msg : Message}

/-- A handler that accepts a `Hello` has accepted the client's. -/
theorem hello_accepted (hsound : Sound x srv cl m) (h : Sent x srv cl m phase sent) (hmem : msg ∈ sent)
    {key : K} (hnext : (onHello x srv m msg).next = .ok key) : serverKey x srv cl m = .ok key := by
  obtain ⟨text, bytes, rfl, hdecode, hfinish⟩ := onHello_eq_ok x srv hnext
  obtain ⟨-, -, rfl⟩ := Message.hello.inj (h.hello_mem hmem)
  rw [hsound.base64] at hdecode
  cases hdecode
  exact hfinish

/-- A handler that accepts a public key has accepted the client's, and has its key. -/
theorem payload_accepted (hsound : Sound x srv cl m) (h : Sent x srv cl m phase sent)
    (hmem : msg ∈ sent.drop 1) {key : K} (hkey : serverKey x srv cl m = .ok key) {s : AwaitAck K}
    (hnext : (onPayload x srv m key msg).next = .ok s) :
    s.pubkey = cl.pubkey ∧ (∃ fingerprint, validateAndFingerprint m cl.pubkey = .ok fingerprint) ∧
      ∀ kc, clientKey x srv cl m = .ok kc → deriveAeadKey x s.sharedKey = deriveAeadKey x kc := by
  obtain ⟨rfl, hdecrypt, hconfirm, -⟩ := onPayload_eq_ok x srv hnext
  obtain ⟨kc, hkc, letter, hletter, hencrypt⟩ := h.letter hmem
  obtain ⟨hpayload, hkeys⟩ := hsound.opened hletter hkc hkey hencrypt hdecrypt
  have hpubkey : s.pubkey = cl.pubkey := by
    rcases List.mem_cons.mp hletter with rfl | hletter
    · exact SecurePayload.pubkey.inj hpayload
    · obtain rfl := List.mem_singleton.mp hletter
      cases hpayload
  refine ⟨hpubkey, ⟨_, hpubkey ▸ confirmFor_eq_ok srv hconfirm⟩, fun kc' hkc' => ?_⟩
  · cases hkc.symm.trans hkc'
    exact hkeys

/-- A handler that reads on after its `Confirm` reads the client's `Ack`. -/
theorem ack_accepted (hsound : Sound x srv cl m) (h : Sent x srv cl m phase sent)
    (hmem : msg ∈ sent.drop 2) {s : AwaitAck K}
    (hkeys : ∀ kc, clientKey x srv cl m = .ok kc →
      deriveAeadKey x s.sharedKey = deriveAeadKey x kc) : onAck x s msg = .ok s.pubkey := by
  obtain ⟨kc, hkc, hencrypt⟩ := h.third hmem
  have hletter : (cl.ackNonce, .ack true) ∈ cl.letters :=
    List.mem_cons_of_mem _ List.mem_cons_self
  exact (onAck_eq_ok x).mpr ⟨hsound.opens hletter (hkeys kc hkc) hencrypt, rfl⟩

/-- The client gets its reply. -/
theorem reply (hsound : Sound x srv cl m) (h : Sent x srv cl m .awaitReply sent) {text : String}
    {key : K} {pubkeyMsg : Message}
    (htext : text = x.base64Encode (spakeStartServer x srv.pairingCode m.spakeSeed).message)
    (hreply : onReply x cl (.spakeMsg text) = .ok (key, pubkeyMsg)) :
    Sent x srv cl m (.awaitConfirm key) (sent ++ [pubkeyMsg]) := by
  subst htext
  obtain ⟨text, bytes, heq, hdecode, hfinish, hencrypt⟩ := onReply_eq_ok hreply
  cases heq
  rw [hsound.base64] at hdecode
  cases hdecode
  cases h with
  | hello => exact .pubkey (.inl rfl) hfinish hencrypt
  | pubkey hphase =>
      rcases hphase with hphase | ⟨c, hphase⟩ <;> cases hphase

theorem confirm {key : K} (h : Sent x srv cl m (.awaitConfirm key) sent) (c : Confirm) :
    Sent x srv cl m (.shown key c) sent := by
  cases h with
  | pubkey hphase hkey hpubkey =>
      rcases hphase with hphase | ⟨c, hphase⟩ <;> cases hphase
      exact .pubkey (.inr ⟨_, rfl⟩) hkey hpubkey

theorem report {key : K} {c : Confirm} (h : Sent x srv cl m (.shown key c) sent) {ack : Message}
    (hack : encrypt x key cl.ackNonce (.ack true) = .ok ack) :
    Sent x srv cl m (.reported c) (sent ++ [ack]) := by
  cases h with
  | pubkey hphase hkey hpubkey =>
      rcases hphase with hphase | ⟨c, hphase⟩ <;> cases hphase
      exact .ack hkey hpubkey hack

end Sent

/-- The only SPAKE2 message the handler sends is its own. -/
theorem onHello_send {msg : Message} {text : String}
    (h : (onHello x srv m msg).send = some (.spakeMsg text)) :
    text = x.base64Encode (spakeStartServer x srv.pairingCode m.spakeSeed).message := by
  cases msg with
  | hello v clientSid clientMsg =>
      rw [onHello] at h
      split at h
      · cases h
      · split at h
        · cases h
        · cases h
          rfl
  | spakeMsg text => cases h
  | encrypted nonce ciphertext => cases h
  | error reason => cases h

theorem onPayload_send {key : K} {msg : Message} {text : String} :
    (onPayload x srv m key msg).send ≠ some (.spakeMsg text) := by
  intro h
  rw [onPayload] at h
  split at h
  · cases h
  · split at h
    · cases h
    · split at h
      · cases h
      · next sealed hsealed =>
          obtain ⟨ciphertext, -, rfl⟩ := encrypt_eq_ok.mp hsealed
          cases h
  · cases h

namespace Progress

variable {file : KeysFile} {sent sent' : List Message} {read : Prop} {link link' : Link K}

theorem start (file : KeysFile) :
    Progress x srv cl m file [clientHello x cl] False (Link.start x cl file) where
  wire n hn := by
    cases hn
    exact ⟨Nat.zero_le _, List.Sublist.refl _⟩
  replies text h := by cases h
  payload key h := by cases h
  ack s h := by cases h
  unread n hn h := h
  accepted h := h.elim
  written h := h.elim
  untouched h := rfl

/-- A step that leaves the handler alone: the client sends or stops, the wire
loses a message. -/
theorem other (h : Progress x srv cl m file sent read link)
    (hhandler : link'.handler = link.handler) (hkeys : link'.authorizedKeys = link.authorizedKeys)
    (hreplies : link'.toClient ⊆ link.toClient)
    (hwire : ∀ n, link.handler.consumed = some n →
      n ≤ sent'.length ∧ link'.toServer.Sublist (sent'.drop n)) :
    Progress x srv cl m file sent' read link' where
  wire n hn := hwire n (hhandler ▸ hn)
  replies text hmem := h.replies text (hreplies hmem)
  payload key hphase := h.payload key (hhandler ▸ hphase)
  ack s hphase := h.ack s (hhandler ▸ hphase)
  unread n hn := h.unread n (hhandler ▸ hn)
  accepted := h.accepted
  written hread := hkeys.trans (h.written hread)
  untouched hread := hkeys.trans (h.untouched hread)

/-- The client sends a message. -/
theorem send (h : Progress x srv cl m file sent read link) {msg : Message}
    (hhandler : link'.handler = link.handler) (hkeys : link'.authorizedKeys = link.authorizedKeys)
    (hreplies : link'.toClient ⊆ link.toClient) (hsend : link'.toServer = link.toServer ++ [msg]) :
    Progress x srv cl m file (sent ++ [msg]) read link' := by
  refine h.other hhandler hkeys hreplies fun n hn => ?_
  obtain ⟨hle, hsub⟩ := h.wire n hn
  rw [hsend, List.drop_append_of_le_length hle, List.length_append]
  exact ⟨Nat.le_add_right_of_le hle, hsub.append (List.Sublist.refl _)⟩

/-- The handler ends before it has read the `Ack`. -/
theorem ended (h : Progress x srv cl m file sent read link) {result : Except Failure Unit}
    (hhandler : link'.handler = .ended result)
    (hkeys : link'.authorizedKeys = link.authorizedKeys)
    (hreplies : ∀ text, Message.spakeMsg text ∈ link'.toClient →
      text = x.base64Encode (spakeStartServer x srv.pairingCode m.spakeSeed).message) :
    Progress x srv cl m file sent read link' where
  wire n hn := by
    rw [hhandler] at hn
    cases hn
  replies := hreplies
  payload key hphase := by
    rw [hhandler] at hphase
    cases hphase
  ack s hphase := by
    rw [hhandler] at hphase
    cases hphase
  unread n hn := by
    rw [hhandler] at hn
    cases hn
  accepted := h.accepted
  written hread := hkeys.trans (h.written hread)
  untouched hread := hkeys.trans (h.untouched hread)

/-- The handler reads a message other than the `Ack`, writes its own, and goes on
to a phase that may be entered, or ends. -/
theorem react (h : Progress x srv cl m file sent read link) {α : Type} {r : Reaction α}
    {next : α → HandlerPhase K} {n : Nat} {msg : Message} {rest : List Message}
    {writeError : Message → Option String} (hn : link.handler.consumed = some n)
    (hwire : link.toServer = msg :: rest)
    (hsend : ∀ text, r.send = some (.spakeMsg text) →
      text = x.base64Encode (spakeStartServer x srv.pairingCode m.spakeSeed).message)
    (hconsumed : ∀ a, (next a).consumed = some (n + 1))
    (hpayload : ∀ a key, r.next = .ok a → next a = .awaitPayload key →
      serverKey x srv cl m = .ok key)
    (hack : ∀ a s, r.next = .ok a → next a = .awaitAck s → s.pubkey = cl.pubkey ∧
      (∃ fingerprint, validateAndFingerprint m cl.pubkey = .ok fingerprint) ∧
      ∀ kc, clientKey x srv cl m = .ok kc → deriveAeadKey x s.sharedKey = deriveAeadKey x kc) :
    Progress x srv cl m file sent read
      (({ link with toServer := rest } : Link K).react writeError r next) := by
  have hunread := h.unread n hn
  obtain ⟨-, hlength, hsub⟩ := sublist_drop_succ (hwire ▸ (h.wire n hn).2)
  have hsent : ∀ text, Message.spakeMsg text ∈ link.toClient ++ r.send.toList →
      text = x.base64Encode (spakeStartServer x srv.pairingCode m.spakeSeed).message := by
    intro text hmem
    rcases List.mem_append.mp hmem with hmem | hmem
    · exact h.replies text hmem
    · exact hsend text (Option.mem_toList.mp hmem)
  rw [Link.react]
  cases r.send.bind writeError with
  | some e => exact h.ended rfl rfl h.replies
  | none =>
      cases hnext : r.next with
      | error e => exact h.ended rfl rfl hsent
      | ok a =>
          refine
            { wire := fun n' hn' => ?_
              replies := hsent
              payload := fun key hphase => hpayload a key hnext hphase
              ack := fun s hphase => hack a s hnext hphase
              unread := fun _ _ => hunread
              accepted := h.accepted
              written := h.written
              untouched := h.untouched }
          obtain rfl : n + 1 = n' := Option.some.inj ((hconsumed a).symm.trans hn')
          exact ⟨hlength, hsub⟩

/-- The handler reads a message. -/
theorem serverReads (hsound : Sound x srv cl m) (hsent : Sent x srv cl m link.client sent)
    (h : Progress x srv cl m file sent read link) (writeError : Message → Option String) :
    Progress x srv cl m file sent (read ∨ ReadsAck link (.serverReads writeError))
      (link.serverReads x srv m writeError) := by
  by_cases hread : ReadsAck link (.serverReads writeError)
  · obtain ⟨⟨s, hphase⟩, hne⟩ := id hread
    obtain ⟨msg, rest, hwire⟩ := List.exists_cons_of_ne_nil hne
    obtain ⟨hpubkey, haccepted, hkeys⟩ := h.ack s hphase
    have hunread := h.unread 2 (by simp [hphase, HandlerPhase.consumed])
    obtain ⟨hmem, -, -⟩ := sublist_drop_succ (hwire ▸ (h.wire 2 (by simp [hphase, HandlerPhase.consumed])).2)
    rw [Link.serverReads, hwire, hphase]
    dsimp only
    rw [hsent.ack_accepted hsound hmem hkeys, hpubkey]
    exact
      { wire := fun _ hn => by cases hn
        replies := h.replies
        payload := fun _ hphase => by cases hphase
        ack := fun _ hphase => by cases hphase
        unread := fun _ hn => by cases hn
        accepted := fun _ => haccepted
        written := fun _ => by rw [← h.untouched hunread]
        untouched := fun hno => absurd (Or.inr hread) hno }
  · rw [eq_false hread, or_false, Link.serverReads]
    cases hwire : link.toServer with
    | nil => exact h
    | cons msg rest =>
        cases hphase : link.handler with
        | awaitHello =>
            have hn : link.handler.consumed = some 0 := by simp [hphase, HandlerPhase.consumed]
            obtain ⟨hmem, -, -⟩ := sublist_drop_succ (hwire ▸ (h.wire 0 hn).2)
            refine h.react hn hwire (fun _ => onHello_send) (fun _ => rfl) ?_
              (fun _ _ _ hack => by cases hack)
            intro a key hnext hpayload
            cases hpayload
            exact hsent.hello_accepted hsound hmem hnext
        | awaitPayload key =>
            have hn : link.handler.consumed = some 1 := by simp [hphase, HandlerPhase.consumed]
            obtain ⟨hmem, -, -⟩ := sublist_drop_succ (hwire ▸ (h.wire 1 hn).2)
            refine h.react hn hwire (fun _ hsend => absurd hsend onPayload_send) (fun _ => rfl)
              (fun _ _ _ hpayload => by cases hpayload) ?_
            intro a s hnext hack
            cases hack
            exact hsent.payload_accepted hsound hmem (h.payload key hphase) hnext
        | awaitAck s => exact absurd ⟨⟨s, hphase⟩, by rw [hwire]; exact List.cons_ne_nil _ _⟩ hread
        | ended result => exact h

/-- The client reads a message: it gives up, or goes on with what it has sent. -/
theorem clientReads (hsound : Sound x srv cl m) (hsent : Sent x srv cl m link.client sent)
    (h : Progress x srv cl m file sent read link) (writeError : Message → Option String) :
    (link.clientReads x cl writeError).client = .failed ∨
      ∃ sent', Sent x srv cl m (link.clientReads x cl writeError).client sent' ∧
        Progress x srv cl m file sent' read (link.clientReads x cl writeError) := by
  rw [Link.clientReads]
  cases hwire : link.toClient with
  | nil => exact .inr ⟨sent, hsent, h⟩
  | cons msg rest =>
      have hrest : rest ⊆ link.toClient := hwire ▸ List.subset_cons_self msg rest
      cases hphase : link.client with
      | awaitReply =>
          rw [hphase] at hsent
          dsimp only
          cases hreply : onReply x cl msg with
          | error e => exact .inl rfl
          | ok reply =>
              obtain ⟨key, pubkeyMsg⟩ := reply
              dsimp only
              cases hwrite : writeError pubkeyMsg with
              | some e => exact .inl rfl
              | none =>
                  obtain ⟨text, bytes, rfl, -⟩ := onReply_eq_ok hreply
                  have htext := h.replies text (hwire ▸ List.mem_cons_self)
                  exact .inr ⟨_, hsent.reply hsound htext hreply, h.send rfl rfl hrest rfl⟩
      | awaitConfirm key =>
          rw [hphase] at hsent
          dsimp only
          cases hconfirm : onConfirm x key msg with
          | error e => exact .inl rfl
          | ok c => exact .inr ⟨_, hsent.confirm c, h.other rfl rfl hrest h.wire⟩
      | shown key c => exact .inr ⟨sent, hsent, h⟩
      | reported c => exact .inr ⟨sent, hsent, h⟩
      | failed => exact .inr ⟨sent, hsent, h⟩

/-- The fingerprint question is answered. -/
theorem answer (hsent : Sent x srv cl m link.client sent)
    (h : Progress x srv cl m file sent read link) (line : String)
    (writeError : Message → Option String) (knownHosts : Option String) :
    (link.answer x cl line writeError knownHosts).client = .failed ∨
      ∃ sent', Sent x srv cl m (link.answer x cl line writeError knownHosts).client sent' ∧
        Progress x srv cl m file sent' read (link.answer x cl line writeError knownHosts) := by
  rw [Link.answer]
  cases hphase : link.client with
  | shown key c =>
      rw [hphase] at hsent
      dsimp only
      cases hack : acknowledge x cl key line with
      | error e => exact .inl rfl
      | ok ack =>
          dsimp only
          cases hwrite : writeError ack with
          | some e => exact .inl rfl
          | none =>
              cases hyes : confirms cl line && knownHosts.isNone with
              | false => exact .inl rfl
              | true =>
                  rw [acknowledge, (Bool.and_eq_true_iff.mp hyes).1] at hack
                  exact .inr ⟨_, hsent.report hack, h.send rfl rfl (List.Subset.refl _) rfl⟩
  | awaitReply => exact .inr ⟨sent, hsent, h⟩
  | awaitConfirm key => exact .inr ⟨sent, hsent, h⟩
  | reported c => exact .inr ⟨sent, hsent, h⟩
  | failed => exact .inr ⟨sent, hsent, h⟩

end Progress

/-- The client takes no part in a step of the server. -/
theorem serverReads_client (link : Link K) (writeError : Message → Option String) :
    (link.serverReads x srv m writeError).client = link.client := by
  have hreact : ∀ {α : Type} (link : Link K) (r : Reaction α) (next : α → HandlerPhase K),
      (link.react writeError r next).client = link.client := by
    intro α link r next
    rw [Link.react]
    split <;> rfl
  rw [Link.serverReads]
  split
  · rfl
  · split
    · exact hreact ..
    · exact hreact ..
    · split <;> rfl
    · rfl

/-- A client that has given up does nothing more. -/
theorem linkStep_failed {link : Link K} (h : link.client = .failed) (e : LinkEvent) :
    (linkStep x srv cl m link e).client = .failed := by
  cases e with
  | serverReads writeError => exact (serverReads_client link writeError).trans h
  | serverFails e =>
      rw [linkStep]
      split <;> exact h
  | clientReads writeError =>
      rw [linkStep, Link.clientReads]
      split
      · exact h
      · rw [h]
        exact h
  | answer line writeError knownHosts =>
      rw [linkStep, Link.answer, h]
      exact h
  | clientFails =>
      rw [linkStep, h]
  | loseToServer i => exact h
  | loseToClient i => exact h

/-- In a step the client gives up, or the two ends get on. -/
theorem linkStep_progress (hsound : Sound x srv cl m) {file : KeysFile} {sent : List Message}
    {read : Prop} {link : Link K} (hsent : Sent x srv cl m link.client sent)
    (h : Progress x srv cl m file sent read link) (e : LinkEvent) :
    let link' := linkStep x srv cl m link e
    link'.client = .failed ∨ ∃ sent', Sent x srv cl m link'.client sent' ∧
      Progress x srv cl m file sent' (read ∨ ReadsAck link e) link' := by
  intro link'
  cases e with
  | serverReads writeError =>
      refine .inr ⟨sent, ?_, h.serverReads hsound hsent writeError⟩
      rw [show link' = link.serverReads x srv m writeError from rfl, serverReads_client]
      exact hsent
  | serverFails e =>
      refine .inr ⟨sent, ?_⟩
      simp only [ReadsAck, or_false, link', linkStep]
      split
      · exact ⟨hsent, h⟩
      · exact ⟨hsent, h.ended rfl rfl h.replies⟩
  | clientReads writeError =>
      simp only [ReadsAck, or_false]
      exact h.clientReads hsound hsent writeError
  | answer line writeError knownHosts =>
      simp only [ReadsAck, or_false]
      exact h.answer hsent line writeError knownHosts
  | clientFails =>
      cases hphase : link.client with
      | reported c =>
          refine .inr ⟨sent, ?_⟩
          simp only [ReadsAck, or_false, link', linkStep, hphase]
          exact ⟨hphase ▸ hsent, h⟩
      | awaitReply => exact .inl (by simp only [link', linkStep, hphase])
      | awaitConfirm key => exact .inl (by simp only [link', linkStep, hphase])
      | shown key c => exact .inl (by simp only [link', linkStep, hphase])
      | failed => exact .inl (by simp only [link', linkStep, hphase])
  | loseToServer i =>
      refine .inr ⟨sent, hsent, ?_⟩
      simp only [ReadsAck, or_false]
      refine h.other rfl rfl (List.Subset.refl _) fun n hn => ?_
      obtain ⟨hle, hsub⟩ := h.wire n hn
      exact ⟨hle, (List.eraseIdx_sublist _ _).trans hsub⟩
  | loseToClient i =>
      refine .inr ⟨sent, hsent, ?_⟩
      simp only [ReadsAck, or_false]
      exact h.other rfl rfl (List.eraseIdx_sublist _ _).subset h.wire

/-! ### A whole exchange -/

variable (x srv cl m) in
/-- The connection after the given events. -/
def exchange (file : KeysFile) (events : List LinkEvent) : Link K :=
  Runs.run (linkStep x srv cl m) (Link.start x cl file) events

variable (x srv cl m) in
/-- At some point of the exchange the handler reads what comes after its `Confirm`. -/
def AckRead (file : KeysFile) (events : List LinkEvent) : Prop :=
  Runs.Once (linkStep x srv cl m) ReadsAck (Link.start x cl file) events

/-- As long as the client has not failed, the two ends get on. -/
theorem exchange_progress (hsound : Sound x srv cl m) (file : KeysFile) (events : List LinkEvent) :
    (exchange x srv cl m file events).client = .failed ∨
      ∃ sent, Sent x srv cl m (exchange x srv cl m file events).client sent ∧
        Progress x srv cl m file sent (AckRead x srv cl m file events)
          (exchange x srv cl m file events) := by
  induction events using List.reverseRecOn with
  | nil => exact .inr ⟨_, .hello, .start file⟩
  | append_singleton events e ih =>
      rw [exchange, Runs.run_concat, AckRead, Runs.once_concat]
      rcases ih with hfailed | ⟨sent, hsent, h⟩
      · exact .inl (linkStep_failed hfailed e)
      · exact linkStep_progress hsound hsent h e

end Exchange

/-! ### What is installed -/

/-- The restricted entry for the key is a line of the file. -/
def Installed (pubkey : String) (file : KeysFile) : Prop := entryLine pubkey ∈ keyLines file

instance (pubkey : String) (file : KeysFile) : Decidable (Installed pubkey file) :=
  inferInstanceAs (Decidable (_ ∈ _))

/-- Once `pair` has reported success, its key is installed exactly if: where the child
has read the `Ack` and got to write, the entry was a complete line already, or what
was written has made one of it; and else, the entry was a line already. `pair` waits
for neither the reading nor the writing. -/
theorem reported_key_is_installed_iff {K : Type} {x : Crates K} {srv : Server} {cl : Client}
    {m : Machine} (hsound : Sound x srv cl m) (file : KeysFile) (events : List LinkEvent)
    {c : Confirm} (hreported : (exchange x srv cl m file events).client = .reported c) :
    Installed cl.pubkey (exchange x srv cl m file events).authorizedKeys ↔
      (AckRead x srv cl m file events ∧ Appends m cl.pubkey file) ∧
          (entryLine cl.pubkey ∈ (split 10 (file.getD [])).1 ∨
            (split 10 (file.getD [])).2 ++ (entryLine cl.pubkey).take (m.written cl.pubkey) =
              entryLine cl.pubkey) ∨
        ¬ (AckRead x srv cl m file events ∧ Appends m cl.pubkey file) ∧
          entryLine cl.pubkey ∈ keyLines file := by
  rcases exchange_progress hsound file events with hfailed | ⟨sent, -, h⟩
  · cases hreported.symm.trans hfailed
  · rw [Installed]
    by_cases hread : AckRead x srv cl m file events
    · rw [h.written hread]
      by_cases happends : Appends m cl.pubkey file
      · obtain ⟨fingerprint, haccepted⟩ := h.accepted hread
        rw [writeToAuthorizedKeys_of_appends happends,
          entryLine_mem_append_iff (newline_notMem_entryLine haccepted)]
        simp only [hread, happends, and_self, true_and, not_true_eq_false, false_and, or_false]
      · rw [writeToAuthorizedKeys_of_not_appends happends]
        simp only [happends, and_false, false_and, not_false_eq_true, true_and, false_or]
    · rw [h.untouched hread]
      simp only [hread, false_and, not_false_eq_true, true_and, false_or]

/-! ### Two exchanges -/

theorem sound_demo : Sound demoCrates kidServer parentClient (kidMachine 8) where
  base64 bytes := by
    simp only [demoCrates, sampleCrates, String.toList_ofList, Base64.decode_encode]
    rfl
  json letter hletter := by
    rcases List.mem_cons.mp hletter with rfl | hletter
    · rfl
    · obtain rfl := List.mem_singleton.mp hletter
      decide +kernel
  nonces := by decide
  aead key nonce text ciphertext h := by
    cases h
    have hprefix : (key ++ nonce).isPrefixOf (key ++ nonce ++ text) = true :=
      List.isPrefixOf_iff_prefix.mpr (List.prefix_append _ _)
    simp only [demoCrates, sampleCrates]
    rw [if_pos hprefix, List.drop_left]
  wrongKey kc ks hkc hks _ _ _ _ _ _ := by
    have hkeys : clientKey demoCrates kidServer parentClient (kidMachine 8) =
        serverKey demoCrates kidServer parentClient (kidMachine 8) := by decide +kernel
    rw [hkc, hks] at hkeys
    cases hkeys
    rfl

/-- Both ends up to the client's `Ack`; every write succeeds. -/
def untilAck : List LinkEvent :=
  [.serverReads fun _ => none, .clientReads fun _ => none, .serverReads fun _ => none,
    .clientReads fun _ => none, .answer "y\n" (fun _ => none) none]

/-- The key comes to that of another parent. -/
theorem reported_key_is_installed_delivered :
    let link := exchange demoCrates kidServer parentClient (kidMachine 8) otherKeys
      (untilAck ++ [.serverReads fun _ => none])
    link.client = .reported kidConfirm ∧ Installed "ssh-rsa K" link.authorizedKeys := by
  intro link
  have hreported : link.client = .reported kidConfirm := by decide +kernel
  have hread : AckRead demoCrates kidServer parentClient (kidMachine 8) otherKeys
      (untilAck ++ [.serverReads fun _ => none]) := by
    rw [AckRead, Runs.once_concat]
    refine .inr ⟨⟨⟨demoKey, "ssh-rsa K", kidConfirm⟩, ?_⟩, ?_⟩ <;> decide +kernel
  have happends : Appends (kidMachine 8) "ssh-rsa K" otherKeys :=
    ⟨by decide +kernel, by decide, rfl, rfl⟩
  exact ⟨hreported, (reported_key_is_installed_iff sound_demo otherKeys _ hreported).mpr
    (.inl ⟨⟨hread, happends⟩, .inr (by decide +kernel)⟩)⟩

/-- The connection breaks after the client has sent its `Ack`: it reports the key as
installed, and the handler has ended without it. -/
theorem lost_ack_is_reported :
    let link := exchange demoCrates kidServer parentClient (kidMachine 8) none
      (untilAck ++ [.loseToServer 0, .serverFails (.text "connection reset by peer")])
    link.client = .reported kidConfirm ∧
      link.handler = .ended (bail "connection reset by peer") ∧
      ¬ Installed "ssh-rsa K" link.authorizedKeys := by
  decide +kernel

end OmarchyKids.Pairing
