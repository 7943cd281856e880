import OmarchyKids.Common.Transport
import OmarchyKids.Lib.Text

/-!
# OmarchyKids.Pairing.Proto

The wire protocol of the pairing exchange: messages, the encrypted payloads, and
the operations on them that both ends share.

What comes from other crates — JSON, base64, SPAKE2, HKDF, the AEAD — is a
parameter, `Crates`. `K` is the type of SPAKE2 keys. Randomness is an argument:
the seed of a SPAKE2 side and the nonce of an encryption.
-/

namespace OmarchyKids.Pairing

inductive Message
  /-- Client to server, first message. -/
  | hello (v : UInt8) (sid spakeMsg : String)
  /-- Server to client. -/
  | spakeMsg (spakeMsg : String)
  /-- Either direction, once both sides hold the derived key. -/
  | encrypted (nonce ciphertext : String)
  /-- Server to client: the exchange is aborted. -/
  | error (reason : String)
  deriving DecidableEq, Repr

/-- The server's answer to a public key: what to connect to, and the fingerprint
to compare. -/
structure Confirm where
  hostname : String
  sshPort : UInt16
  fingerprint : String
  username : String
  sshHostPublicKey : String
  deriving DecidableEq, Repr

/-- The plaintext of an `encrypted` message. -/
inductive SecurePayload
  | pubkey (pubkey : String)
  | confirm (c : Confirm)
  | ack (confirmed : Bool)
  deriving DecidableEq, Repr

/-- A started side of a SPAKE2 exchange: the message for the peer, and what the
peer's message makes of it. -/
structure Spake (K : Type) where
  message : List UInt8
  finish : List UInt8 → Except String K

/-- The operations of third-party crates. -/
structure Crates (K : Type) where
  /-- `serde_json::from_str::<Message>` -/
  parseMessage : String → Except String Message
  /-- `serde_json::to_vec` of a payload -/
  payloadToVec : SecurePayload → List UInt8
  /-- `serde_json::from_slice::<SecurePayload>` -/
  parsePayload : List UInt8 → Except String SecurePayload
  base64Encode : List UInt8 → String
  base64Decode : String → Except String (List UInt8)
  /-- `char::to_uppercase` -/
  toUppercase : Char → List Char
  /-- `Spake2::start_a` and `start_b`: password, the two identities, randomness. -/
  startA : List UInt8 → List UInt8 → List UInt8 → List UInt8 → Spake K
  startB : List UInt8 → List UInt8 → List UInt8 → List UInt8 → Spake K
  /-- HKDF-Expand of the SPAKE2 key with an info string. -/
  hkdf : K → List UInt8 → List UInt8
  /-- ChaCha20-Poly1305 under key and nonce. -/
  aeadEncrypt : List UInt8 → List UInt8 → List UInt8 → Option (List UInt8)
  aeadDecrypt : List UInt8 → List UInt8 → List UInt8 → Option (List UInt8)

inductive Failure
  /-- "reading from peer" -/
  | reading (e : ReadError)
  /-- "parsing message" -/
  | parsing (e : String)
  | text (e : String)
  | context (c : String) (cause : Failure)
  deriving DecidableEq, Repr

/-- `bail!` -/
def bail {α : Type} (e : String) : Except Failure α := .error (.text e)

/-- Another crate's error, with its `anyhow` context. -/
def context {α : Type} (c : String) : Except String α → Except Failure α
  | .ok a => .ok a
  | .error e => bail (c ++ ": " ++ e)

/-- A sequence of fallible steps succeeds when each of them does. -/
theorem bind_eq_ok {α β : Type} {e : Except Failure α} {f : α → Except Failure β} {b : β} :
    (e >>= f) = .ok b ↔ ∃ a, e = .ok a ∧ f a = .ok b := by
  cases e with
  | error e => simp [bind, Except.bind]
  | ok a => simp [bind, Except.bind]

theorem context_eq_ok {α : Type} {c : String} {e : Except String α} {a : α} :
    context c e = .ok a ↔ e = .ok a := by
  cases e <;> simp [context, bail]

def idControlCenter : List UInt8 := Utf8.bytes "omarchy-kids-control-center"

def idChild : List UInt8 := Utf8.bytes "omarchy-kids-child"

def hkdfInfo : List UInt8 := Utf8.bytes "omarchy-kids-pairing v1 aead-key"

def nonceLen : Nat := 12

variable {K : Type} (x : Crates K)

/-! ### Reading -/

/-- Reads and parses the next line; the rest of the stream stays behind. -/
def readMessage (r : Stream) : Except Failure (Message × Stream) :=
  match readLineBounded r maxLineBytes with
  | (.error e, _) => .error (.reading e)
  | (.ok none, _) => bail "connection closed before a message was received"
  | (.ok (some line), r) =>
      match x.parseMessage line with
      | .error e => .error (.parsing e)
      | .ok msg => .ok (msg, r)

/-! ### Encryption -/

/-- The AEAD key of a SPAKE2 secret. -/
def deriveAeadKey (spakeKey : K) : List UInt8 := x.hkdf spakeKey hkdfInfo

def encrypt (spakeKey : K) (nonce : List UInt8) (payload : SecurePayload) :
    Except Failure Message :=
  match x.aeadEncrypt (deriveAeadKey x spakeKey) nonce (x.payloadToVec payload) with
  | none => bail "encryption failed"
  | some ciphertext => .ok (.encrypted (x.base64Encode nonce) (x.base64Encode ciphertext))

/-- Fails on a wrong pairing code: with a mismatched key the AEAD does not
authenticate. -/
def decrypt (spakeKey : K) : Message → Except Failure SecurePayload
  | .encrypted nonce ciphertext => do
      let nonceBytes ← context "decoding nonce" (x.base64Decode nonce)
      if nonceBytes.length ≠ nonceLen then
        bail "nonce has the wrong length"
      let ciphertext ← context "decoding ciphertext" (x.base64Decode ciphertext)
      match x.aeadDecrypt (deriveAeadKey x spakeKey) nonceBytes ciphertext with
      | none => bail "decryption failed (wrong pairing code, or corrupted message)"
      | some plaintext =>
          match x.parsePayload plaintext with
          | .error e => bail e
          | .ok payload => .ok payload
  | _ => bail "expected an encrypted message, got something else"

/-! ### The pairing code -/

/-- Hyphens, blanks and letter case are not significant. -/
def normalizeCode (code : String) : String :=
  String.ofList
    ((code.toList.filter fun c => !Text.isWhitespace c && c != '-').flatMap x.toUppercase)

/-- The server is side "B". -/
def spakeStartServer (code : String) (seed : List UInt8) : Spake K :=
  x.startB (Utf8.bytes (normalizeCode x code)) idControlCenter idChild seed

/-- The client is side "A". -/
def spakeStartClient (code : String) (seed : List UInt8) : Spake K :=
  x.startA (Utf8.bytes (normalizeCode x code)) idControlCenter idChild seed

end OmarchyKids.Pairing
