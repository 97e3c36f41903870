import SealedGateway.Proofs.Session.Client
import SealedGateway.Proofs.Session.KeyHistory
import SealedGateway.Proofs.Session.Window

/-!
# Delivery

Whatever a session has been through, a client that opens a handshake now and seals a message under
the key it derives gets the message through, unchanged.

- **`pair_of_run`**: the pair of a session is a secret with its own public key, so the client agrees
  with the secret that the gateway uses.
- **`delivery`** is the whole exchange.
-/

namespace SealedGateway.Session

/-- The pair of a session in a run belongs together, drawn or still to be drawn. -/
theorem pair_of_run (connectionId : String) (nonceLimit : Nat) (e : Entropy)
    (frames : List Bytes) (e' : Entropy) :
    let pair := ((run connectionId nonceLimit e frames).session.keyPairOrGenerate e').1
    pair = .ofSecret pair.secret := by
  intro pair
  rcases (KeyInv.run connectionId nonceLimit e frames).drawn with ⟨hn, -⟩ | ⟨hs, -⟩
  · simp only [pair, keyPairOrGenerate_of_none hn]
    rfl
  · simp only [pair, keyPairOrGenerate_of_some hs]
    rfl

/-- **Delivery.** In any state of a run, the handshake of a client with the secret `a` is
acknowledged, the client reads the session's key off the acknowledgement, and a message that it
seals under this key and any nonce is accepted as it is. -/
theorem delivery (connectionId : String) (nonceLimit : Nat) (e : Entropy) (frames : List Bytes)
    (e' : Entropy) (a : Octets 32) (nonce : Octets 12) (m : Message) :
    let s := (run connectionId nonceLimit e frames).session
    let b := (s.keyPairOrGenerate e').1.secret
    Curve25519.scalarMult a (Curve25519.publicKey b) =
      Curve25519.scalarMult b (Curve25519.publicKey a) →
    Curve25519.scalarMult b (Curve25519.publicKey a) ≠ .zero 32 →
    m.audience.Canonical → m.encode.length ≤ Gcm.maxLength →
    ∃ ack s₁ e₁ key frame,
      s.process e' (Client.hello (.ofSecret a)) = (.ok (.acknowledged ack), s₁, e₁) ∧
      Client.complete (.ofSecret a) ack.encode = .ok key ∧ s₁.key = some key ∧
      Client.sealMessage key nonce m = .ok frame ∧
      (s₁.process e₁ frame).1 = .ok (.accepted m) := by
  intro s b hagree hzero hm hlen
  obtain ⟨pair, e₁, hg⟩ := keyPairOrGenerate_eq s e'
  have hb : b = pair.secret := by simp only [b, hg]
  have hpair : pair = .ofSecret pair.secret := by
    have h := pair_of_run connectionId nonceLimit e frames e'
    simpa only [s, hg] using h
  have hpublic : pair.publicKey = Curve25519.publicKey pair.secret :=
    congrArg KeyPair.publicKey hpair
  rw [hb] at hagree hzero
  rw [← hpublic] at hagree
  have hserver : sharedSecret pair (KeyPair.ofSecret a).publicKey =
      .ok (Curve25519.scalarMult pair.secret (Curve25519.publicKey a)) :=
    sharedSecret_eq_ok hzero
  have hclient : sharedSecret (.ofSecret a) pair.publicKey =
      .ok (Curve25519.scalarMult a pair.publicKey) :=
    sharedSecret_eq_ok (hagree ▸ hzero)
  rw [hagree] at hclient
  -- From here on the secret that both ends share is a name.
  generalize Curve25519.scalarMult pair.secret (Curve25519.publicKey a) = secret at hserver hclient
  have hlimit : 0 < s.nonceLimit := by
    rw [(WindowInv.run connectionId nonceLimit e frames).nonceLimit]
    omega
  -- The window is empty behind the handshake, whatever it was before.
  let s₁ : Session :=
    { s with keyPair := some pair, key := some (deriveKey secret.toBytes), nonces := [] }
  have hmessage : s₁.process e₁
      (Client.sealedFrame (Gcm.encrypt (deriveKey secret.toBytes) nonce m.encode) nonce) =
        (.ok (.accepted m), { s₁ with nonces := [nonce] }, e₁) :=
    process_sealedFrame rfl List.not_mem_nil hlimit hm hlen
  exact ⟨_, s₁, e₁, deriveKey secret.toBytes, _, process_hello hg hserver,
    Client.complete_ack hclient, rfl, Client.sealMessage_eq_ok _ nonce hlen,
    congrArg Prod.fst hmessage⟩

/-- A session whose window is full takes a handshake and the next message. -/
theorem delivery_full_window :
    ∃ ack s₁ e₁ key frame,
      (run "c1" 1 Sample.entropy Sample.frames).session.process ⟨[]⟩
        (Client.hello Sample.client) = (.ok (.acknowledged ack), s₁, e₁) ∧
      Client.complete Sample.client ack.encode = .ok key ∧ s₁.key = some key ∧
      Client.sealMessage key Sample.nonce Sample.message = .ok frame ∧
      (s₁.process e₁ frame).1 = .ok (.accepted Sample.message) := by
  have hb : ((run "c1" 1 Sample.entropy Sample.frames).session.keyPairOrGenerate ⟨[]⟩).1.secret =
      Sample.gatewaySecret := by
    rw [Sample.run_frames]
    rfl
  refine delivery "c1" 1 Sample.entropy Sample.frames ⟨[]⟩ Sample.clientSecret Sample.nonce
    Sample.message ?_ ?_ Sample.canonical Sample.length_le
  · rw [hb]
    exact Sample.secret_eq
  · rw [hb]
    exact Sample.secret_ne_zero

end SealedGateway.Session
