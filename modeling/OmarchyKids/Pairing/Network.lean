import OmarchyKids.Pairing.Serve
import OmarchyKids.Pairing.Pair

/-!
# OmarchyKids.Pairing.Network

One `pair` client and one `serve` process on a network that the attacker owns.

The attacker decides which connections reach `serve`, and which message each side
reads next; nothing is delivered unless the attacker delivers it. What is on the
wire is therefore not part of the state. Two idealisations limit the attacker
(`Admissible`):

* the AEAD — a message that decrypts under a key one of the two sides derived
  decrypts to a payload that one of them has sealed under that key. The attacker
  holds none of these keys, since it does not know the code;
* SPAKE2 — every exchange of `serve` ends in a key of its own. So the key stands
  for the connection.

Both directions use one key, and no message says who sent it. What excludes
replays and reflections is which payload each side accepts at which point:
`Sealing` records who can have sealed what, and `install_was_confirmed` what
follows for a key that reaches `authorized_keys`.
-/

namespace OmarchyKids.Pairing

/-- The two honest ends. -/
inductive Author
  | client
  | serve
  deriving DecidableEq, Repr

/-- A payload that an honest end has encrypted. -/
structure Sealed (K : Type) where
  author : Author
  key : K
  payload : SecurePayload
  deriving DecidableEq, Repr

/-- Where `serve` is in its current connection. -/
inductive ServerPhase (K : Type)
  | idle
  | awaitHello (m : Machine)
  | awaitPayload (m : Machine) (sharedKey : K)
  | awaitAck (m : Machine) (s : AwaitAck K)
  /-- Paired, or timed out. -/
  | returned

/-- The key of the current connection. -/
def ServerPhase.key {K : Type} : ServerPhase K → Option K
  | .awaitPayload _ sharedKey => some sharedKey
  | .awaitAck _ s => some s.sharedKey
  | _ => none

/-- Where `pair` is; it starts by sending its `Hello`. -/
inductive ClientPhase (K : Type)
  | awaitReply
  | awaitConfirm (sharedKey : K)
  /-- The fingerprint is on the screen. -/
  | shown (sharedKey : K) (c : Confirm)
  | ended
  deriving DecidableEq, Repr

/-- A call of `write_to_authorized_keys`, with the key of its connection. -/
structure Install (K : Type) where
  key : K
  machine : Machine
  pubkey : String

/-- The fields from `serverKeys` on are history. -/
structure Network (K : Type) where
  server : ServerPhase K := .idle
  client : ClientPhase K := .awaitReply
  authorizedKeys : KeysFile
  /-- The keys `serve` has derived. -/
  serverKeys : List K := []
  clientKey : Option K := none
  sealed : List (Sealed K) := []
  /-- What the client's user (or `--yes`) said yes to. -/
  confirmed : Option Confirm := none
  installs : List (Install K) := []

inductive Event
  /-- `serve` accepts a connection. -/
  | connect (m : Machine)
  | toServer (msg : Message)
  /-- A read or write error, a time-out, a closed or malformed connection. -/
  | serverFails
  /-- The window ends. -/
  | deadline
  | toClient (msg : Message)
  /-- The answer to the fingerprint question; not looked at with `--yes`. -/
  | answer (line : String)
  | clientFails

variable {K : Type} (x : Crates K) (srv : Server) (cl : Client)

def installKey (file : KeysFile) (i : Install K) : KeysFile :=
  (writeToAuthorizedKeys i.machine i.pubkey file).2

/-- `serve` reads a message. -/
def Network.toServer (net : Network K) (msg : Message) : Network K :=
  match net.server with
  | .awaitHello m =>
      match (onHello x srv m msg).next with
      | .error _ => { net with server := .idle }
      | .ok key =>
          { net with server := .awaitPayload m key, serverKeys := net.serverKeys ++ [key] }
  | .awaitPayload m key =>
      match (onPayload x srv m key msg).next with
      | .error _ => { net with server := .idle }
      | .ok s =>
          { net with
            server := .awaitAck m s
            sealed := net.sealed ++ [⟨.serve, key, .confirm s.confirm⟩] }
  | .awaitAck m s =>
      match onAck x s msg with
      | .error _ => { net with server := .idle }
      | .ok pubkey =>
          { net with
            server :=
              if (writeToAuthorizedKeys m pubkey net.authorizedKeys).1 matches .ok () then .returned
              else .idle
            authorizedKeys := installKey net.authorizedKeys ⟨s.sharedKey, m, pubkey⟩
            installs := net.installs ++ [⟨s.sharedKey, m, pubkey⟩] }
  | _ => net

/-- `pair` reads a message. -/
def Network.toClient (net : Network K) (msg : Message) : Network K :=
  match net.client with
  | .awaitReply =>
      match onReply x cl msg with
      | .error _ => { net with client := .ended }
      | .ok (key, _) =>
          { net with
            client := .awaitConfirm key
            clientKey := some key
            sealed := net.sealed ++ [⟨.client, key, .pubkey cl.pubkey⟩] }
  | .awaitConfirm key =>
      match onConfirm x key msg with
      | .error _ => { net with client := .ended }
      | .ok c => { net with client := .shown key c }
  | _ => net

def Network.answer (net : Network K) (line : String) : Network K :=
  match net.client with
  | .shown key c =>
      match acknowledge x cl key line with
      | .error _ => { net with client := .ended }
      | .ok _ =>
          { net with
            client := .ended
            sealed := net.sealed ++ [⟨.client, key, .ack (confirms cl line)⟩]
            confirmed := if confirms cl line then some c else net.confirmed }
  | _ => net

def networkStep (net : Network K) : Event → Network K
  | .connect m =>
      match net.server with
      | .idle => { net with server := .awaitHello m }
      | _ => net
  | .toServer msg => net.toServer x srv msg
  | .serverFails =>
      match net.server with
      | .returned => net
      | _ => { net with server := .idle }
  | .deadline =>
      match net.server with
      | .idle => { net with server := .returned }
      | _ => net
  | .toClient msg => net.toClient x cl msg
  | .answer line => net.answer x cl line
  | .clientFails => { net with client := .ended }

/-! ### What the attacker cannot do -/

/-- If the message decrypts under `key`, then to a payload that an honest end has
sealed under it. -/
def Network.Authentic (net : Network K) (key : K) (msg : Message) : Prop :=
  match decrypt x key msg with
  | .ok payload => ∃ s ∈ net.sealed, s.key = key ∧ s.payload = payload
  | .error _ => True

def Admissible (net : Network K) : Event → Prop
  | .toServer msg =>
      match net.server with
      | .awaitHello m =>
          match (onHello x srv m msg).next with
          | .ok key => key ∉ net.serverKeys
          | .error _ => True
      | .awaitPayload _ key => net.Authentic x key msg
      | .awaitAck _ s => net.Authentic x s.sharedKey msg
      | _ => True
  | .toClient msg =>
      match net.client with
      | .awaitConfirm key => net.Authentic x key msg
      | _ => True
  | _ => True

theorem Network.Authentic.sealed {net : Network K} {key : K} {msg : Message}
    {payload : SecurePayload} (h : net.Authentic x key msg)
    (hdecrypt : decrypt x key msg = .ok payload) :
    ∃ author, ⟨author, key, payload⟩ ∈ net.sealed := by
  rw [Authentic, hdecrypt] at h
  obtain ⟨s, hs, rfl, rfl⟩ := h
  exact ⟨s.author, hs⟩

instance [DecidableEq K] (net : Network K) (key : K) (msg : Message) :
    Decidable (net.Authentic x key msg) :=
  match h : decrypt x key msg with
  | .ok payload =>
      decidable_of_iff (∃ s ∈ net.sealed, s.key = key ∧ s.payload = payload)
        (by simp only [Network.Authentic, h])
  | .error _ => isTrue (by simp only [Network.Authentic, h])

instance [DecidableEq K] (net : Network K) : ∀ e, Decidable (Admissible x srv net e)
  | .toServer msg =>
      match h : net.server with
      | .awaitHello m =>
          match hnext : (onHello x srv m msg).next with
          | .ok key => decidable_of_iff (key ∉ net.serverKeys) (by simp only [Admissible, h, hnext])
          | .error _ => isTrue (by simp only [Admissible, h, hnext])
      | .awaitPayload _ key =>
          decidable_of_iff (net.Authentic x key msg) (by simp only [Admissible, h])
      | .awaitAck _ s =>
          decidable_of_iff (net.Authentic x s.sharedKey msg) (by simp only [Admissible, h])
      | .idle => isTrue (by simp only [Admissible, h])
      | .returned => isTrue (by simp only [Admissible, h])
  | .toClient msg =>
      match h : net.client with
      | .awaitConfirm key =>
          decidable_of_iff (net.Authentic x key msg) (by simp only [Admissible, h])
      | .awaitReply => isTrue (by simp only [Admissible, h])
      | .shown _ _ => isTrue (by simp only [Admissible, h])
      | .ended => isTrue (by simp only [Admissible, h])
  | .connect _ | .serverFails | .deadline | .answer _ | .clientFails => isTrue trivial

/-! ### The handler on the network -/

variable {x srv cl}

/-- A connection that `handle_connection` negotiates to the end is, on the
network, its three messages read one after the other: the same key is installed,
with the same effect on `authorized_keys`. -/
theorem negotiate_on_network {net : Network K} {c : Connection} {pubkey : String}
    (hidle : net.server = .idle) (h : negotiate x srv c = .ok pubkey) :
    ∃ hello payload ack r₁ r₂ r₃ key,
      readMessage x c.input = .ok (hello, r₁) ∧ readMessage x r₁ = .ok (payload, r₂) ∧
      readMessage x r₂ = .ok (ack, r₃) ∧
      let net' := Runs.run (networkStep x srv cl) net
        [.connect c.machine, .toServer hello, .toServer payload, .toServer ack]
      net'.installs = net.installs ++ [⟨key, c.machine, pubkey⟩] ∧
        net'.authorizedKeys = (handleConnection x srv c net.authorizedKeys).2 := by
  have hhandled : handleConnection x srv c net.authorizedKeys =
      writeToAuthorizedKeys c.machine pubkey net.authorizedKeys := by
    rw [handleConnection, h]
  unfold negotiate at h
  obtain ⟨⟨hello, r₁⟩, hread₁, h⟩ := bind_eq_ok.mp h
  obtain ⟨key, hhello, h⟩ := bind_eq_ok.mp h
  obtain ⟨⟨payload, r₂⟩, hread₂, h⟩ := bind_eq_ok.mp h
  obtain ⟨s, hpayload, h⟩ := bind_eq_ok.mp h
  obtain ⟨⟨ack, r₃⟩, hread₃, hack⟩ := bind_eq_ok.mp h
  refine ⟨hello, payload, ack, r₁, r₂, r₃, s.sharedKey, hread₁, hread₂, hread₃, ?_⟩
  have hnext₁ := Connection.react_eq_ok hhello
  have hnext₂ := Connection.react_eq_ok hpayload
  simp only [Runs.run_cons, Runs.run_nil, networkStep, hidle, Network.toServer, hnext₁, hnext₂,
    hack]
  refine ⟨trivial, ?_⟩
  rw [hhandled]
  rfl

end OmarchyKids.Pairing
