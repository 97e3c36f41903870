import SealedGateway.Protocol
import SealedGateway.Proofs.Aead
import SealedGateway.Proofs.Failure

/-!
# What one frame does to a session

`Session.process` reads a frame through several layers. Here its effect is said once, for all that
is proved about runs:

- **What a frame carries**: the peer key of a handshake (`Frame.peerKey?`) and the nonce of a
  sealed message (`Frame.nonce?`), whatever the session.
- **`process_sealed`**: the answer to a sealed message in a ready session, check by check;
  `contents` is what remains once the nonce and the window have been passed.
- **`Step`**: all that a frame can do, one constructor for each way, and `process_step`.
-/

namespace SealedGateway

namespace Frame

/-- The peer key that a handshake frame carries. -/
def peerKey? (data : Bytes) : Option (Octets 32) :=
  match Frame.decode data with
  | .ok (.handshake k) => (decodeBase64 k).toOption.bind (Octets.ofBytes? 32)
  | _ => none

/-- The nonce that a sealed frame carries. -/
def nonce? (data : Bytes) : Option (Octets 12) :=
  match Frame.decode data with
  | .ok (.sealed _ (some iv)) => (decodeBase64 iv).toOption.bind (Octets.ofBytes? 12)
  | _ => none

theorem peerKey?_eq {data b : Bytes} {k : String} {peer : Octets 32}
    (hd : Frame.decode data = .ok (.handshake k)) (hb : decodeBase64 k = .ok b)
    (hp : Octets.ofBytes? 32 b = some peer) : peerKey? data = some peer := by
  simp [peerKey?, hd, hb, Except.toOption, hp]

theorem nonce?_eq {data : Bytes} {ciphertext iv : String} {nonce : Octets 12}
    (hd : Frame.decode data = .ok (.sealed ciphertext (some iv)))
    (hn : decodeBase64 iv = .ok nonce.toBytes) : nonce? data = some nonce := by
  simp [nonce?, hd, hn, Except.toOption]

end Frame

namespace Session

/-! ## Sealed messages -/

/-- The message of a ciphertext in Base64, opened under a key and a nonce. -/
def contents (key : SessionKey) (nonce : Octets 12) (ciphertext : String) :
    Except Failure Message := do
  let sealedText ← decodeBase64 ciphertext
  let text ← Aead.decrypt key nonce.toBytes sealedText
  Message.decode text

theorem contents_eq_ok_iff {key : SessionKey} {nonce : Octets 12} {ciphertext : String}
    {m : Message} :
    contents key nonce ciphertext = .ok m ↔
      ∃ sealedText text, decodeBase64 ciphertext = .ok sealedText ∧
        Aead.decrypt key nonce.toBytes sealedText = .ok text ∧ Message.decode text = .ok m := by
  simp only [contents, bind_eq_ok_iff, exists_and_left]

theorem contents_error {key : SessionKey} {nonce : Octets 12} {ciphertext : String} {f : Failure}
    (h : contents key nonce ciphertext = .error f) :
    f = .authenticationFailed ∨ ∃ c, f = .codec c := by
  simp only [contents, bind_eq_error_iff] at h
  rcases h with hb | ⟨c, -, hd | ⟨t, -, hm⟩⟩
  · obtain ⟨e, rfl⟩ := decodeBase64_error hb
    exact .inr ⟨_, rfl⟩
  · exact .inl (Aead.decrypt_error hd)
  · exact .inr ⟨_, Message.decode_error hm⟩

variable {s : Session} {e : Entropy} {data : Bytes}

/-- The checks of `openSealed` before the ciphertext is looked at. -/
theorem openSealed_eq {key : SessionKey} {ciphertext iv : String} {nonce : Octets 12}
    (hk : s.key = some key) (hn : decodeBase64 iv = .ok nonce.toBytes) :
    s.openSealed ciphertext iv =
      if nonce ∈ s.nonces then .error .nonceReused
      else if s.nonceLimit ≤ s.nonces.length then .error (.rekeyRequired s.nonceLimit)
      else (contents key nonce ciphertext).map fun m => (m, s.recordNonce nonce) := by
  simp only [openSealed, hk, hn, bind, Except.bind, Aead.checkNonce_toBytes, nonceSeen,
    rekeyRequired, decide_eq_true_eq]
  split
  · rfl
  · split
    · rfl
    · simp only [contents, bind, Except.bind]
      cases decodeBase64 ciphertext with
      | error f => rfl
      | ok c =>
        simp only
        cases Aead.decrypt key nonce.toBytes c with
        | error f => rfl
        | ok t => cases Message.decode t <;> rfl

/-- The answer to a sealed message whose nonce has the right length: the nonce first, then the
window, then what the ciphertext holds. -/
theorem process_sealed {key : SessionKey} {ciphertext iv : String} {nonce : Octets 12}
    (hk : s.key = some key) (hd : Frame.decode data = .ok (.sealed ciphertext (some iv)))
    (hn : decodeBase64 iv = .ok nonce.toBytes) :
    s.process e data =
      if nonce ∈ s.nonces then (.error .nonceReused, s, e)
      else if s.nonceLimit ≤ s.nonces.length then (.error (.rekeyRequired s.nonceLimit), s, e)
      else
        match contents key nonce ciphertext with
        | .ok m => (.ok (.accepted m), { s with nonces := nonce :: s.nonces }, e)
        | .error f => (.error f, s, e) := by
  simp only [process, hd, handleFrame, handshakeComplete, hk, Option.isSome_some, Bool.not_true,
    Bool.false_eq_true, ↓reduceIte, openSealed_eq hk hn]
  by_cases hs : nonce ∈ s.nonces
  · simp only [hs, ↓reduceIte]
  · by_cases hl : s.nonceLimit ≤ s.nonces.length
    · simp only [hs, hl, ↓reduceIte]
    · simp only [hs, hl, ↓reduceIte]
      cases contents key nonce ciphertext with
      | error f => rfl
      | ok m => simp [Except.map, recordNonce, rekeyRequired, nonceSeen, hs, hl, hk]

/-! ## Every frame -/

/-- What a frame can do to a session and to the entropy. -/
inductive Step (s : Session) (e : Entropy) (data : Bytes) :
    Except Failure Outcome → Session → Entropy → Prop where
  /-- A handshake succeeds: its key is taken up with an empty window. -/
  | agreed {pair : KeyPair} {e' : Entropy} {peer secret : Octets 32}
      (hg : s.keyPairOrGenerate e = (pair, { s with keyPair := some pair }, e'))
      (hp : Frame.peerKey? data = some peer) (hs : sharedSecret pair peer = .ok secret) :
      Step s e data (.ok (.acknowledged (Ack.ofKey (Base64.encode pair.publicKey.toBytes))))
        { s with
          keyPair := some pair, key := some (deriveKey secret.toBytes), nonces := [] } e'
  /-- A handshake fails at the agreement itself and can leave a fresh key pair behind. -/
  | lowOrder {pair : KeyPair} {e' : Entropy} {peer : Octets 32} {f : Failure}
      (hg : s.keyPairOrGenerate e = (pair, { s with keyPair := some pair }, e'))
      (hp : Frame.peerKey? data = some peer) (hs : sharedSecret pair peer = .error f) :
      Step s e data (.error f) { s with keyPair := some pair } e'
  /-- A sealed message is opened, and its nonce is kept. -/
  | accepted {key : SessionKey} {ciphertext iv : String} {nonce : Octets 12} {m : Message}
      (hk : s.key = some key) (hd : Frame.decode data = .ok (.sealed ciphertext (some iv)))
      (hn : decodeBase64 iv = .ok nonce.toBytes) (hu : nonce ∉ s.nonces)
      (hl : s.nonces.length < s.nonceLimit) (hm : contents key nonce ciphertext = .ok m) :
      Step s e data (.ok (.accepted m)) { s with nonces := nonce :: s.nonces } e
  | failed {f : Failure} (hf : f.frameLocal = true) : Step s e data (.error f) s e
  | dropped {reason : DropReason} : Step s e data (.ok (.dropped reason)) s e

/-- What an accepted message says of its frame. -/
theorem Step.of_accepted {m : Message} {s' : Session} {e' : Entropy}
    (h : Step s e data (.ok (.accepted m)) s' e') :
    ∃ key ciphertext iv nonce, s.key = some key ∧
      Frame.decode data = .ok (.sealed ciphertext (some iv)) ∧
      decodeBase64 iv = .ok (Octets.toBytes nonce) ∧ contents key nonce ciphertext = .ok m := by
  cases h with
  | accepted hk hd hn hu hl hm => exact ⟨_, _, _, _, hk, hd, hn, hm⟩

/-- A handshake that succeeds empties the window. -/
theorem Step.nonces_of_acknowledged {ack : Ack} {s' : Session} {e' : Entropy}
    (h : Step s e data (.ok (.acknowledged ack)) s' e') : s'.nonces = [] := by
  cases h with
  | agreed hg hp hs => rfl

/-- A pair that a session has is the one that it uses. -/
theorem keyPairOrGenerate_of_some {pair : KeyPair}
    (h : s.keyPair = some pair) : s.keyPairOrGenerate e = (pair, s, e) := by
  unfold keyPairOrGenerate
  rw [h]

theorem keyPairOrGenerate_kept {pair : KeyPair} (h : s.keyPair = some pair) :
    s.keyPairOrGenerate e = (pair, { s with keyPair := some pair }, e) := by
  rw [keyPairOrGenerate_of_some h, ← h]

theorem keyPairOrGenerate_of_none (h : s.keyPair = none) :
    s.keyPairOrGenerate e =
      ((KeyPair.generate e).1, { s with keyPair := some (KeyPair.generate e).1 },
        (KeyPair.generate e).2) := by
  unfold keyPairOrGenerate
  rw [h]

theorem keyPairOrGenerate_eq (s : Session) (e : Entropy) :
    ∃ pair e', s.keyPairOrGenerate e = (pair, { s with keyPair := some pair }, e') := by
  unfold keyPairOrGenerate
  split
  · rename_i k hk
    exact ⟨k, e, by rw [← hk]⟩
  · exact ⟨_, _, rfl⟩

/-- The key agreement is a variable in the lemmas on `handshake`: no check of a case may run it. -/
theorem sharedSecret_var : ∃ agree, agree = sharedSecret := ⟨_, rfl⟩

theorem handshake_badText {publicKey : String} {f : Failure}
    (hb : decodeBase64 publicKey = .error f) :
    s.handshake e publicKey = (.error (.invalidPeerKey f.message), s, e) := by
  obtain ⟨agree, ha⟩ := sharedSecret_var
  unfold handshake
  rewrite [← ha]
  clear ha
  simp only [hb]

theorem handshake_badLength {publicKey : String} {b : Bytes} {f : Failure}
    (hb : decodeBase64 publicKey = .ok b) (hp : parsePublicKey b = .error f) :
    s.handshake e publicKey = (.error f, s, e) := by
  obtain ⟨agree, ha⟩ := sharedSecret_var
  unfold handshake
  rewrite [← ha]
  clear ha
  simp only [hb, hp]

section Agreement

variable {publicKey : String} {b : Bytes} {peer : Octets 32} {pair : KeyPair} {e' : Entropy}

theorem handshake_lowOrder {f : Failure} (hb : decodeBase64 publicKey = .ok b)
    (hp : parsePublicKey b = .ok peer)
    (hg : s.keyPairOrGenerate e = (pair, { s with keyPair := some pair }, e'))
    (hs : sharedSecret pair peer = .error f) :
    s.handshake e publicKey = (.error f, { s with keyPair := some pair }, e') := by
  obtain ⟨agree, ha⟩ := sharedSecret_var
  unfold handshake
  rw [← ha] at hs ⊢
  clear ha
  simp only [hb, hp, hg, hs]

theorem handshake_agreed {secret : Octets 32} (hb : decodeBase64 publicKey = .ok b)
    (hp : parsePublicKey b = .ok peer)
    (hg : s.keyPairOrGenerate e = (pair, { s with keyPair := some pair }, e'))
    (hs : sharedSecret pair peer = .ok secret) :
    s.handshake e publicKey =
      (.ok (Ack.ofKey (Base64.encode pair.publicKey.toBytes)),
        { s with keyPair := some pair, key := some (deriveKey secret.toBytes), nonces := [] },
        e') := by
  obtain ⟨agree, ha⟩ := sharedSecret_var
  unfold handshake
  rw [← ha] at hs ⊢
  clear ha
  simp only [hb, hp, hg, hs, installKey]

end Agreement

theorem handshake_step {publicKey : String} (hd : Frame.decode data = .ok (.handshake publicKey)) :
    Step s e data (((s.handshake e publicKey).1).map .acknowledged) (s.handshake e publicKey).2.1
      (s.handshake e publicKey).2.2 := by
  cases hb : decodeBase64 publicKey with
  | error f =>
    rw [handshake_badText hb]
    exact .failed rfl
  | ok b =>
    cases hp : parsePublicKey b with
    | error f =>
      obtain ⟨d, rfl⟩ := parsePublicKey_error hp
      rw [handshake_badLength hb hp]
      exact .failed rfl
    | ok peer =>
      have hpeer := Frame.peerKey?_eq hd hb (parsePublicKey_eq_ok_iff.mp hp)
      obtain ⟨pair, e', hg⟩ := keyPairOrGenerate_eq s e
      cases hs : sharedSecret pair peer with
      | error f =>
        rw [handshake_lowOrder hb hp hg hs]
        exact .lowOrder hg hpeer hs
      | ok secret =>
        rw [handshake_agreed hb hp hg hs]
        exact .agreed hg hpeer hs

theorem openSealed_step {key : SessionKey} {ciphertext iv : String} (hk : s.key = some key)
    (hd : Frame.decode data = .ok (.sealed ciphertext (some iv))) :
    Step s e data (s.process e data).1 (s.process e data).2.1 (s.process e data).2.2 := by
  cases hb : decodeBase64 iv with
  | error f =>
    obtain ⟨g, rfl⟩ := decodeBase64_error hb
    simp only [process, hd, handleFrame, handshakeComplete, hk, openSealed, hb]
    exact .failed rfl
  | ok b =>
    cases hn : Octets.ofBytes? 12 b with
    | none =>
      simp only [process, hd, handleFrame, handshakeComplete, hk, openSealed, hb, bind,
        Except.bind, Aead.checkNonce, hn]
      exact .failed rfl
    | some nonce =>
      obtain rfl := Octets.ofBytes?_eq_some_iff.mp hn
      rw [process_sealed hk hd hb]
      split
      · exact .failed rfl
      · rename_i hu
        split
        · exact .failed rfl
        · rename_i hl
          cases hm : contents key nonce ciphertext with
          | ok m => exact .accepted hk hd hb hu (Nat.lt_of_not_le hl) hm
          | error f =>
            rcases contents_error hm with rfl | ⟨c, rfl⟩ <;> exact .failed rfl

/-- Every frame does one of the things that `Step` lists. -/
theorem process_step (s : Session) (e : Entropy) (data : Bytes) :
    Step s e data (s.process e data).1 (s.process e data).2.1 (s.process e data).2.2 := by
  cases hd : Frame.decode data with
  | error f =>
    simp only [process, hd]
    exact .failed (Frame.decode_error hd)
  | ok frame =>
    cases frame with
    | handshake k =>
      simp only [process, hd, handleFrame]
      exact handshake_step hd
    | unknown k =>
      simp only [process, hd, handleFrame]
      exact .dropped
    | «sealed» c n =>
      cases hk : s.key with
      | none =>
        simp only [process, hd, handleFrame, handshakeComplete, hk]
        exact .dropped
      | some key =>
        cases n with
        | none =>
          simp only [process, hd, handleFrame, handshakeComplete, hk]
          exact .failed rfl
        | some iv => exact openSealed_step hk hd

/-- A frame that fails costs nothing but itself. -/
theorem process_error {f : Failure} (h : (s.process e data).1 = .error f) :
    f.frameLocal = true := by
  have hstep := process_step s e data
  rw [h] at hstep
  generalize (s.process e data).2.1 = s' at hstep
  generalize (s.process e data).2.2 = e' at hstep
  cases hstep with
  | lowOrder hg hp hs =>
    obtain ⟨d, rfl⟩ := sharedSecret_error hs
    rfl
  | failed hf => exact hf

end Session

end SealedGateway
