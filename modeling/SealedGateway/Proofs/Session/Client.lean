import SealedGateway.Proofs.Session.Run
import SealedGateway.Proofs.Text.Base64
import SealedGateway.Proofs.Wire
import SealedGateway.Session.Client

/-!
# A client and the gateway

- **`process_hello`** and **`process_sealedFrame`** are what the gateway makes of a client's frames.
- **`Client.complete_ack`** is what the client makes of the answer.
-/

namespace SealedGateway

@[simp] theorem decodeBase64_encode (b : Bytes) : decodeBase64 (Base64.encode b) = .ok b := by
  rw [decodeBase64, Base64.decode_encode]

namespace Client

@[simp] theorem decode_hello (pair : KeyPair) :
    Frame.decode (hello pair) = .ok (.handshake (Base64.encode pair.publicKey.toBytes)) :=
  Frame.decode_encode trivial

@[simp] theorem peerKey?_hello (pair : KeyPair) :
    Frame.peerKey? (hello pair) = some pair.publicKey :=
  Frame.peerKey?_eq (decode_hello pair) (decodeBase64_encode _) (Octets.ofBytes?_toBytes _)

@[simp] theorem decode_sealedFrame (ciphertext : Bytes) (nonce : Octets 12) :
    Frame.decode (sealedFrame ciphertext nonce) =
      .ok (.sealed (Base64.encode ciphertext) (some (Base64.encode nonce.toBytes))) :=
  Frame.decode_encode trivial

theorem sealMessage_eq_ok {m : Message} (key : SessionKey) (nonce : Octets 12)
    (h : m.encode.length ≤ Gcm.maxLength) :
    sealMessage key nonce m = .ok (sealedFrame (Gcm.encrypt key nonce m.encode) nonce) := by
  rw [sealMessage, Aead.encrypt_eq_ok key h]
  rfl

theorem complete_ack {pair : KeyPair} {server secret : Octets 32}
    (h : sharedSecret pair server = .ok secret) :
    complete pair (Ack.ofKey (Base64.encode server.toBytes)).encode =
      .ok (deriveKey secret.toBytes) := by
  have hkey : (Ack.ofKey (Base64.encode server.toBytes)).serverKey =
      Base64.encode server.toBytes := rfl
  simp only [complete, bind_eq_ok_iff]
  refine ⟨_, Ack.decode_encode _, server.toBytes, ?_, server, parsePublicKey_toBytes server,
    secret, h, rfl⟩
  rw [hkey, decodeBase64_encode]

end Client

namespace Session

variable {s : Session} {e : Entropy}

/-- The gateway answers a client's first frame with its own key. -/
theorem process_hello {pair client : KeyPair} {e' : Entropy} {secret : Octets 32}
    (hg : s.keyPairOrGenerate e = (pair, { s with keyPair := some pair }, e'))
    (hs : sharedSecret pair client.publicKey = .ok secret) :
    s.process e (Client.hello client) =
      (.ok (.acknowledged (Ack.ofKey (Base64.encode pair.publicKey.toBytes))),
        { s with keyPair := some pair, key := some (deriveKey secret.toBytes), nonces := [] },
        e') := by
  have hh := handshake_agreed (decodeBase64_encode client.publicKey.toBytes)
    (parsePublicKey_toBytes client.publicKey) hg hs
  rw [process, Client.decode_hello]
  simp only [handleFrame, hh]
  rfl

/-- What a client sealed is opened as long as its nonce is new and the window is not full. -/
theorem process_sealedFrame {key : SessionKey} {nonce : Octets 12} {m : Message}
    (hk : s.key = some key) (hu : nonce ∉ s.nonces) (hl : s.nonces.length < s.nonceLimit)
    (hm : m.audience.Canonical) (hlen : m.encode.length ≤ Gcm.maxLength) :
    s.process e (Client.sealedFrame (Gcm.encrypt key nonce m.encode) nonce) =
      (.ok (.accepted m), { s with nonces := nonce :: s.nonces }, e) := by
  have hc : contents key nonce (Base64.encode (Gcm.encrypt key nonce m.encode)) = .ok m :=
    contents_eq_ok_iff.mpr ⟨_, _, decodeBase64_encode _, Aead.decrypt_of_encrypt hlen,
      Message.decode_encode_of_canonical hm⟩
  rw [process_sealed hk (Client.decode_sealedFrame _ _) (decodeBase64_encode _), if_neg hu,
    if_neg (Nat.not_le.mpr hl), hc]

/-- The run after a client's handshake and its first message. -/
theorem feed_exchange {r : Run} {pair client : KeyPair} {e' : Entropy} {secret : Octets 32}
    {key : SessionKey} {nonce : Octets 12} {m : Message}
    (hg : r.session.keyPairOrGenerate r.entropy =
      (pair, { r.session with keyPair := some pair }, e'))
    (hs : sharedSecret pair client.publicKey = .ok secret)
    (hk : deriveKey secret.toBytes = key) (hl : 0 < r.session.nonceLimit)
    (hm : m.audience.Canonical) (hlen : m.encode.length ≤ Gcm.maxLength) :
    let frame := Client.sealedFrame (Gcm.encrypt key nonce m.encode) nonce
    let ack := Ack.ofKey (Base64.encode pair.publicKey.toBytes)
    let s₁ := { r.session with keyPair := some pair, key := some key, nonces := [] }
    let s₂ := { s₁ with nonces := [nonce] }
    r.feed [Client.hello client, frame] =
      ⟨s₂, e', ⟨frame, s₁, .ok (.accepted m), s₂⟩ ::
        ⟨Client.hello client, r.session, .ok (.acknowledged ack), s₁⟩ :: r.events⟩ := by
  intro frame ack s₁ s₂
  have hhello : r.next (Client.hello client) =
      r.record (Client.hello client) (.ok (.acknowledged ack)) s₁ e' := by
    rw [Run.next_of_process (process_hello hg hs), hk]
  have hframe : s₁.process e' frame = (.ok (.accepted m), s₂, e') :=
    process_sealedFrame rfl List.not_mem_nil hl hm hlen
  change (r.next (Client.hello client)).next frame = _
  rw [hhello]
  exact Run.next_of_process hframe

end Session

/-! ## A fixed exchange -/

namespace Sample

/-- The secret that a gateway draws from `entropy`. -/
def gatewaySecret : Octets 32 := ⟨List.replicate 32 1, rfl⟩

def entropy : Entropy := ⟨gatewaySecret.toBytes⟩

def gateway : KeyPair := .ofSecret gatewaySecret

def clientSecret : Octets 32 := ⟨List.replicate 32 2, rfl⟩

def client : KeyPair := .ofSecret clientSecret

def nonce : Octets 12 := ⟨List.replicate 12 5, rfl⟩

def message : Message := ⟨"hi", "t1", "u1", .direct, "u2", "m1"⟩

def secret : Octets 32 := Curve25519.scalarMult gateway.secret client.publicKey

theorem secret_ne_zero : secret ≠ .zero 32 := by decide +kernel

theorem secret_eq : Curve25519.scalarMult client.secret gateway.publicKey = secret := by
  decide +kernel

theorem sharedSecret_eq : sharedSecret gateway client.publicKey = .ok secret :=
  sharedSecret_eq_ok secret_ne_zero

theorem canonical : message.audience.Canonical := by decide +kernel

theorem length_le : message.encode.length ≤ Gcm.maxLength := by decide +kernel

def key : SessionKey := deriveKey secret.toBytes

def frame : Bytes := Client.sealedFrame (Gcm.encrypt key nonce message.encode) nonce

/-- A handshake and a message. -/
def frames : List Bytes := [Client.hello client, frame]

/-- The session once a handshake has succeeded and the messages of `nonces` are accepted. -/
def session (limit : Nat) (nonces : List (Octets 12)) : Session :=
  { connectionId := "c1", nonceLimit := max limit 1, keyPair := some gateway, key := some key,
    nonces }

theorem draw_eq : entropy.draw 32 = (gatewaySecret, ⟨[]⟩) := by decide +kernel

theorem generate_eq : KeyPair.generate entropy = (gateway, ⟨[]⟩) := by
  rw [KeyPair.generate, draw_eq, gateway]

/-- The handshake in a session. -/
def handshakeEvent (limit : Nat) (before : Session) : Session.Event :=
  { frame := Client.hello client
    before
    result := .ok (.acknowledged (Ack.ofKey (Base64.encode gateway.publicKey.toBytes)))
    after := session limit [] }

/-- The message behind it. -/
def messageEvent (limit : Nat) : Session.Event :=
  { frame
    before := session limit []
    result := .ok (.accepted message)
    after := session limit [nonce] }

theorem keyPairOrGenerate_eq (limit : Nat) :
    (Session.create "c1" limit).keyPairOrGenerate entropy =
      (gateway, { Session.create "c1" limit with keyPair := some gateway }, ⟨[]⟩) := by
  rw [Session.keyPairOrGenerate_of_none rfl, generate_eq]

theorem run_frames (limit : Nat) :
    Session.run "c1" limit entropy frames =
      { session := session limit [nonce]
        entropy := ⟨[]⟩
        events := [messageEvent limit, handshakeEvent limit (.create "c1" limit)] } := by
  have hlimit : 0 < max limit 1 := by omega
  exact Session.feed_exchange (keyPairOrGenerate_eq limit) sharedSecret_eq rfl hlimit canonical
    length_le

end Sample

end SealedGateway
