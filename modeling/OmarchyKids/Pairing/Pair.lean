import OmarchyKids.Pairing.Proto

/-!
# OmarchyKids.Pairing.Pair

The Control Center's side of pairing: what `pair` makes of each message, and of
the answer to the fingerprint question.
-/

namespace OmarchyKids.Pairing

/-- A `pair` process: its command line, the public key it generated, and the
randomness it draws. -/
structure Client where
  sid : String
  code : String
  /-- Confirm without asking. -/
  yes : Bool := false
  pubkey : String
  spakeSeed : List UInt8 := []
  pubkeyNonce : List UInt8 := []
  ackNonce : List UInt8 := []
  deriving DecidableEq, Repr

variable {K : Type} (x : Crates K) (cl : Client)

/-- The first message. -/
def clientHello : Message :=
  .hello 1 cl.sid (x.base64Encode (spakeStartClient x cl.code cl.spakeSeed).message)

/-- The reply to the `Hello`: the shared key, and the encrypted public key to send. -/
def onReply : Message → Except Failure (K × Message)
  | .spakeMsg spakeMsg => do
      let serverMsg ← context "decoding base64" (x.base64Decode spakeMsg)
      let sharedKey ← context "SPAKE2 exchange failed"
        ((spakeStartClient x cl.code cl.spakeSeed).finish serverMsg)
      let pubkeyMsg ← encrypt x sharedKey cl.pubkeyNonce (.pubkey cl.pubkey)
      return (sharedKey, pubkeyMsg)
  | .error reason => bail ("server rejected pairing: " ++ reason)
  | _ => bail "expected a SpakeMsg reply"

/-- The confirmation whose fingerprint is shown. -/
def onConfirm (sharedKey : K) (msg : Message) : Except Failure Confirm :=
  match decrypt x sharedKey msg with
  | .ok (.confirm c) => .ok c
  | .ok _ => bail "expected a Confirm payload"
  | .error e =>
      .error (.context "decrypting the server's confirmation failed (wrong code?)" e)

/-- Whether an answer to the fingerprint question says yes. -/
def saysYes (answer : String) : Bool :=
  let answer := (Text.trim answer.toList).map Char.toLower
  answer == ['y'] || answer == ['y', 'e', 's']

def confirms (answer : String) : Bool := cl.yes || saysYes answer

/-- The `Ack`, sent whatever the answer. -/
def acknowledge (sharedKey : K) (answer : String) : Except Failure Message :=
  encrypt x sharedKey cl.ackNonce (.ack (confirms cl answer))

theorem onConfirm_eq_ok {sharedKey : K} {msg : Message} {c : Confirm} :
    onConfirm x sharedKey msg = .ok c ↔ decrypt x sharedKey msg = .ok (.confirm c) := by
  unfold onConfirm
  split
  · next h => simp [h]
  · next h => grind [bail]
  · next h => simp [h]

end OmarchyKids.Pairing
