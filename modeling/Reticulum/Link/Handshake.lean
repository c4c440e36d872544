import Reticulum.Base.Run
import Reticulum.Link.Model
import Reticulum.PacketIdentity

/-!
# The link handshake

An initiator and the responder that it asked agree on the link id, the key and the MTU, whatever
headers the request passed through and whatever forged proofs came before the genuine one.

The link id is one because both sides compute it from what the copies of the request share
(`Packet.linkId_of_decode`). The key is one because it is derived from the link id and an exchange
that commutes. The MTU goes through the three signalling bytes twice (`signalling_round_trip`): the
request carries the one that is asked for, and the proof the smaller of it and the responder's own.
A refused proof changes only the peer keys of the link (`Pending`), which the genuine one
overwrites.
-/

namespace Reticulum

open List Option Octets

/-- What the results about encrypted data assume of the primitives: a token that was sealed opens,
and it is as long as its format says. -/
structure Primitives.TokenSound (p : Primitives) : Prop where
  open_seal : ∀ key random plaintext, p.tokenOpen key (p.tokenSeal key random plaintext) =
    some plaintext
  length_seal : ∀ key random plaintext, (p.tokenSeal key random plaintext).length =
    16 + (plaintext.length / 16 + 1) * 16 + 32

/-- What the results about links assume of the primitives: that, and also that the exchange commutes
and that a signature is valid exactly when the matching key made it. -/
structure Primitives.Sound (p : Primitives) : Prop extends p.TokenSound where
  exchange_comm : ∀ a b, p.x25519Exchange a (p.x25519Public b) =
    p.x25519Exchange b (p.x25519Public a)
  verify_iff : ∀ key message signature, p.ed25519Verify key message signature = true ↔
    ∃ private_key, p.ed25519Public private_key = key ∧
      p.ed25519Sign private_key message = signature

namespace Link

open Bytes (beEncode beDecode)

/-! ## Signalling -/

variable {mtu : ℕ} {p : Primitives} {initiator link : Link} {raw : List UInt8}

/-- An MTU of 21 bits goes through the signalling bytes unchanged. -/
theorem signalling_round_trip (hpos : mtu ≠ 0) (hmask : mtu ≤ mtuMask) :
    ∃ bytes, signallingEncode mtu modeAes256Cbc = some bytes ∧ bytes.length = 3 ∧
      signallingDecode bytes = some (mtu, modeAes256Cbc) := by
  have hand : ∀ x, x &&& mtuMask = x % 2^21 := fun x => Nat.and_two_pow_sub_one_eq_mod x 21
  have hlt : mtu < 2^21 := Nat.lt_succ_of_le hmask
  -- The mode is the bit above the MTU.
  have hvalue : (mtu &&& mtuMask) ||| ((modeAes256Cbc <<< 5).toNat <<< 16) = 2^21 + mtu := by
    have hmode : (modeAes256Cbc <<< 5).toNat <<< 16 = 2^21 * 1 := by decide
    rw [hand, hmode, Nat.or_comm, Nat.mod_eq_of_lt hlt, ← Nat.two_pow_add_eq_or_of_lt hlt, mul_one]
  refine ⟨beEncode 3 (2^21 + mtu), ?_, by simp, ?_⟩
  · have hok : ¬ (mtu = 0 ∨ mtu > mtuMask ∨ modeAes256Cbc ≠ modeAes256Cbc) := by
      simp [hpos, hmask]
    rw [signallingEncode, if_neg hok, hvalue]
  · have hread : beDecode (beEncode 3 (2^21 + mtu)) = 2^21 + mtu :=
      Bytes.beDecode_beEncode (by norm_num; omega)
    have hmode : ((beEncode 3 (2^21 + mtu)).getD 0 0 &&& 0xe0) >>> 5 = modeAes256Cbc := by
      have hall : ∀ k : Fin 32, (UInt8.ofNat (32 + k) &&& 0xe0) >>> 5 = modeAes256Cbc := by decide
      have hfirst : (beEncode 3 (2^21 + mtu)).getD 0 0 = .ofNat (32 + mtu / 65536) := by
        have hquotient : (2^21 + mtu) / 256^2 = 32 + mtu / 65536 := by omega
        show UInt8.ofNat ((2^21 + mtu) / 256^2) = _
        rw [hquotient]
      rw [hfirst]
      exact hall ⟨mtu / 65536, by omega⟩
    have hmod : (2^21 + mtu) % 2^21 = mtu := by omega
    rw [signallingDecode, hread, hmode, hand, hmod, if_pos ⟨hpos, rfl⟩]

variable {mode : UInt8} {bytes : List UInt8}

/-- Signalling that is encoded is within the mask. -/
theorem signallingEncode_eq_some (h : signallingEncode mtu mode = some bytes) :
    mtu ≠ 0 ∧ mtu ≤ mtuMask := by
  unfold signallingEncode at h
  split_ifs at h with hbad
  simp only [not_or, not_lt] at hbad
  exact ⟨hbad.1, hbad.2.1⟩

/-! ## Tokens -/

variable {random : Octets 16} {plaintext token : List UInt8} {capacity capacity' : ℕ}

/-- Two links with one key, one active and the other active or in its handshake: what the first
encrypts the second decrypts. -/
theorem decrypt_encrypt (hp : p.TokenSound) {sender receiver : Link}
    (hkey : sender.derived_key = receiver.derived_key)
    (hstate : receiver.state = .active ∨ receiver.state = .handshake)
    (h : encrypt p sender random plaintext capacity = some token)
    (hroom : token.length - 48 ≤ capacity') :
    decrypt p receiver token capacity' = some plaintext := by
  unfold encrypt at h
  split_ifs at h
  rw [hkey, tokenEncrypt] at h
  split_ifs at h with hbad
  cases h
  have hlength := hp.length_seal receiver.derived_key random plaintext
  generalize hseal : p.tokenSeal receiver.derived_key random plaintext = sealed at *
  have hok : ¬ (sealed.length < 64 ∨ (sealed.length - 48) % 16 ≠ 0 ∨
      sealed.length - 48 > 2^31 - 1 ∨ capacity' < sealed.length - 48) := by omega
  rw [decrypt, if_pos hstate, tokenDecrypt, if_neg hok, ← hseal, hp.open_seal]

/-! ## The initiator before the genuine proof -/

/-- The link differs from the initiator at most in the peer keys that refused proofs left. -/
def Pending (initiator link : Link) : Prop :=
  ∃ peer_public peer_signing_public, link = { initiator with peer_public, peer_signing_public }

/-- The link after a proof came in, with the reading of the clock. -/
def proofStep (p : Primitives) (link : Link) (proof : List UInt8 × ℚ) : Link :=
  (initiatorAcceptProof p link proof.1 proof.2).2

theorem pending_proofStep {proof : List UInt8 × ℚ} (h : Pending initiator link)
    (hrefused : (initiatorAcceptProof p link proof.1 proof.2).1 = false) :
    Pending initiator (proofStep p link proof) := by
  obtain ⟨a, b, rfl⟩ := h
  unfold proofStep
  unfold initiatorAcceptProof at hrefused ⊢
  split
  · exact ⟨a, b, rfl⟩
  split
  · exact ⟨a, b, rfl⟩
  split
  · exact ⟨a, b, rfl⟩
  dsimp only
  split
  · exact ⟨_, _, rfl⟩
  split
  · exact ⟨_, _, rfl⟩
  · simp_all

/-- Refused proofs leave a pending link pending. -/
theorem pending_final {forged : List (List UInt8 × ℚ)} (hrefused : Run.Each (proofStep p)
      (fun link proof => (initiatorAcceptProof p link proof.1 proof.2).1 = false)
      initiator forged) : Pending initiator (Run.final (proofStep p) initiator forged) :=
  Run.invariant (fun _ _ h hr => pending_proofStep h hr)
    ⟨initiator.peer_public, initiator.peer_signing_public, rfl⟩ hrefused

/-! ## The two sides -/

/-- The payload of a request. -/
def requestData (link : Link) (signalling : List UInt8) : List UInt8 :=
  link.public_key.bytes ++ link.signing_public.bytes ++ signalling

/-- What an initiator with a request packet holds. -/
structure Requested (p : Primitives) (destination : Identity) (x_private : Octets 32) (mtu : ℕ)
    (raw : List UInt8) (link : Link) : Prop where
  role : link.role = .initiator
  state : link.state = .pending
  mtu_eq : link.mtu = mtu
  mode : link.mode = modeAes256Cbc
  private_key : link.private_key = x_private
  public_key : link.public_key = p.x25519Public x_private
  remote_identity : link.remote_identity = destination
  mtu_ne : mtu ≠ 0
  mtu_le : mtu ≤ mtuMask
  /-- The request packet carries the public keys and the MTU, and gives the link id. -/
  request : ∃ packet signalling, Packet.decode raw = some packet ∧
    signallingEncode mtu modeAes256Cbc = some signalling ∧
    packet.data = requestData link signalling ∧
    linkIdFromRequestPacket p.toCrypto raw = some link.link_id

variable {link' : Link}

/-- The request packet carries the request of the link. -/
theorem initiatorSetRequestPacket_eq_some (h : initiatorSetRequestPacket p link raw = some link') :
    ∃ packet signalling link_id, Packet.decode raw = some packet ∧
      signallingEncode link.mtu link.mode = some signalling ∧
      packet.data = requestData link signalling ∧
      linkIdFromRequestPacket p.toCrypto raw = some link_id ∧ link' = { link with link_id } := by
  unfold initiatorSetRequestPacket at h
  split_ifs at h with hrole
  cases hdecode : Packet.decode raw with
  | none => simp [hdecode] at h
  | some packet =>
    cases hsignalling : signallingEncode link.mtu link.mode with
    | none => simp [buildRequestPayload, hsignalling] at h
    | some signalling =>
      have hpayload : buildRequestPayload link = some (requestData link signalling) := by
        rw [buildRequestPayload, if_neg hrole, hsignalling]
        rfl
      simp only [hdecode, hpayload] at h
      split_ifs at h with hdata
      cases hid : linkIdFromRequestPacket p.toCrypto raw with
      | none => simp [hid] at h
      | some link_id =>
        simp only [hid, some.injEq] at h
        rw [not_or, not_not, not_not] at hdata
        exact ⟨packet, signalling, link_id, rfl, rfl, hdata.2, rfl, h.symm⟩

variable {destination : Identity} {x_private : Octets 32} {timeout now : ℚ}

theorem requested_of_init {s_private : Octets 32}
    (hinit : initiatorInit p destination x_private s_private mtu timeout now = some initiator)
    (hrequest : initiatorSetRequestPacket p initiator raw = some link) :
    Requested p destination x_private mtu raw link := by
  obtain ⟨packet, signalling, link_id, hdecode, hsignalling, hdata, hid, rfl⟩ :=
    initiatorSetRequestPacket_eq_some hrequest
  unfold initiatorInit at hinit
  split_ifs at hinit
  cases hinit
  obtain ⟨hne, hle⟩ := signallingEncode_eq_some hsignalling
  exact ⟨rfl, rfl, rfl, rfl, rfl, rfl, rfl, hne, hle, packet, signalling, hdecode, hsignalling,
    hdata, hid⟩

/-- What a responder to that request holds. -/
structure Granted (p : Primitives) (identity : LocalIdentity) (private_key : Octets 32)
    (initiator responder : Link) : Prop where
  role : responder.role = .responder
  state : responder.state = .handshake
  mtu_eq : responder.mtu = min initiator.mtu Reticulum.mtu
  mode : responder.mode = modeAes256Cbc
  link_id : responder.link_id = initiator.link_id
  public_key : responder.public_key = p.x25519Public private_key
  signing_private : identity.signing_private = some responder.signing_private
  signing_public : responder.signing_public = identity.signing_public
  /-- The key is that of the exchange with the initiator. -/
  derived_key : ∃ shared, p.x25519Exchange private_key initiator.public_key = some shared ∧
    responder.derived_key = p.hkdfSha256 shared initiator.link_id

variable {requested : ℕ} {responder : Link} {identity : LocalIdentity} {private_key : Octets 32}

/-- The responder reads the request of the initiator, under whatever header it arrives. -/
theorem granted_of_accept
    {raw' : List UInt8} (hinitiator : Requested p destination x_private requested raw initiator)
    (hconverted : Packet.Converted raw raw')
    (haccept : responderAccept p identity private_key raw' timeout now = some responder) :
    Granted p identity private_key initiator responder := by
  obtain ⟨packet, copy, hdecode, hdecode', hsame⟩ := hconverted
  obtain ⟨packet', signalling, hpacket, hsignalling, hdata, hid⟩ := hinitiator.request
  obtain rfl := some.inj (hdecode.symm.trans hpacket)
  -- The link id is the one that the initiator computed.
  have hid' : linkIdFromRequestPacket p.toCrypto raw' = some initiator.link_id := by
    rw [Packet.linkId_of_decode _ hdecode', hsame.identityLinkId_eq,
      ← Packet.linkId_of_decode _ hdecode, hid]
  -- The data are the keys of the initiator and the MTU that it asks for.
  obtain ⟨hpos, hmask⟩ := signallingEncode_eq_some hsignalling
  obtain ⟨bytes, hencode, hthree, hread⟩ := signalling_round_trip hpos hmask
  obtain rfl := some.inj (hsignalling.symm.trans hencode)
  have hcopy : copy.data = requestData initiator signalling := hsame.data.trans hdata
  have hlength : copy.data.length = 67 := by simp [hcopy, requestData, hthree]
  have hpeer : ofList 32 copy.data = initiator.public_key := by
    rw [hcopy, requestData, append_assoc, ofList_append]
  have hgranted : requestSignalling copy.data = some (requested, modeAes256Cbc) := by
    have hdrop : copy.data.drop 64 = signalling := by
      rw [hcopy, requestData]
      exact drop_left' (by simp)
    rw [requestSignalling, if_pos hlength, hdrop, hread]
  have hclamp : (if requested > Reticulum.mtu then Reticulum.mtu else requested) =
      min requested Reticulum.mtu := by
    split_ifs <;> omega
  unfold responderAccept at haccept
  cases hprivate : identity.signing_private with
  | none => simp [hprivate] at haccept
  | some signing_private =>
    simp only [hprivate, hdecode', hgranted, hid', hpeer, hclamp] at haccept
    split_ifs at haccept
    unfold derive at haccept
    cases hshared : p.x25519Exchange private_key initiator.public_key with
    | none => simp [hshared] at haccept
    | some shared =>
      simp only [hshared, some.injEq] at haccept
      subst haccept
      exact ⟨rfl, rfl, by rw [hinitiator.mtu_eq], rfl, rfl, rfl, hprivate, rfl, shared, hshared,
        rfl⟩

/-! ## Agreement -/

/-- The genuine proof is accepted by an initiator that waits for it. -/
theorem initiatorAcceptProof_genuine (hp : p.Sound)
    (hinitiator : Requested p identity.toIdentity x_private requested raw initiator)
    (hresponder : Granted p identity private_key initiator responder)
    (hidentity : ∀ s, identity.signing_private = some s →
      identity.signing_public = p.ed25519Public s) (hpending : Pending initiator link) :
    ∃ proof, buildProof p responder = some proof ∧ ∀ now,
      let r := initiatorAcceptProof p link proof now
      r.1 = true ∧ r.2.state = .active ∧ r.2.link_id = responder.link_id ∧
        r.2.derived_key = responder.derived_key ∧ r.2.mtu = responder.mtu := by
  have hne : responder.mtu ≠ 0 := by
    have := hinitiator.mtu_ne
    rw [hresponder.mtu_eq, hinitiator.mtu_eq, Reticulum.mtu]
    omega
  have hle : responder.mtu ≤ mtuMask := by
    rw [hresponder.mtu_eq, hinitiator.mtu_eq]
    exact (min_le_left _ _).trans hinitiator.mtu_le
  obtain ⟨signalling, hencode, hthree, hread⟩ := signalling_round_trip hne hle
  obtain ⟨shared, hshared, hkey⟩ := hresponder.derived_key
  obtain ⟨a, b, rfl⟩ := hpending
  let message := proofMessage responder.link_id responder.public_key responder.signing_public
    signalling
  let signature := p.ed25519Sign responder.signing_private message
  let proof := signature.bytes ++ responder.public_key.bytes ++ signalling
  have hproof : buildProof p responder = some proof := by
    simp [buildProof, hresponder.role, hresponder.state, hresponder.mode, hencode, proof, signature,
      message]
  refine ⟨proof, hproof, fun now => ?_⟩
  -- The fields of the proof.
  have hlength : proof.length = 99 := by simp [proof, hthree]
  have hsignalling : proof.drop 96 = signalling := drop_left' (by simp)
  have hpeer : ofList 32 (proof.drop 64) = responder.public_key := by
    have hdrop : proof.drop 64 = responder.public_key.bytes ++ signalling := by
      show (signature.bytes ++ responder.public_key.bytes ++ signalling).drop 64 = _
      rw [append_assoc]
      exact drop_left' (by simp)
    rw [hdrop, ofList_append]
  have hsignature : ofList 64 proof = signature := by
    show ofList 64 (signature.bytes ++ responder.public_key.bytes ++ signalling) = _
    rw [append_assoc, ofList_append]
  -- The signature is that of the destination on the same message.
  have hverify : identityVerify p.toCrypto initiator.remote_identity
      (proofMessage initiator.link_id responder.public_key initiator.remote_identity.signing_public
        signalling) signature = true := by
    have hmessage : proofMessage initiator.link_id responder.public_key
        initiator.remote_identity.signing_public signalling = message := by
      rw [hinitiator.remote_identity, ← hresponder.link_id, ← hresponder.signing_public]
    have hpublic := hidentity _ hresponder.signing_private
    rw [hmessage, identityVerify, hinitiator.remote_identity, hpublic]
    exact (hp.verify_iff _ _ _).2 ⟨responder.signing_private, rfl, rfl⟩
  -- The exchange gives the secret that the responder has.
  have hexchange : p.x25519Exchange initiator.private_key responder.public_key = some shared := by
    rw [hinitiator.private_key, hresponder.public_key, hp.exchange_comm, ← hinitiator.public_key,
      hshared]
  have heq : initiatorAcceptProof p { initiator with peer_public := a, peer_signing_public := b }
      proof now = (true, { initiator with
        peer_public := responder.public_key
        peer_signing_public := initiator.remote_identity.signing_public
        derived_key := p.hkdfSha256 shared initiator.link_id
        rtt := now - initiator.request_time
        mtu := responder.mtu
        state := .active
        activated_at := now }) := by
    simp [initiatorAcceptProof, hlength, hinitiator.role, hinitiator.state, hsignalling, hread,
      hinitiator.mode, hpeer, hsignature, hverify, derive, hexchange]
  rw [heq]
  exact ⟨rfl, rfl, hresponder.link_id.symm, hkey.symm, rfl⟩

/-- A responder whose confirmation was accepted is active and has the key that it had. -/
theorem responderAcceptRtt_accepted (h : responderAcceptRtt p link token now = (true, link')) :
    link'.state = .active ∧ link'.derived_key = link.derived_key := by
  unfold responderAcceptRtt at h
  iterate 4
    split at h
    · cases h
  · obtain ⟨-, rfl⟩ := Prod.mk.inj h
    exact ⟨rfl, rfl⟩

/-- The link handshake agrees. An initiator that asked for a link, under whatever headers its
request reached the responder and whatever proofs it refused before, accepts the proof of the
responder. Both then hold one link id, one key and one MTU, the smaller of the requested one and the
responder's own; at no time is the MTU of the initiator above the requested one; and once the
responder is active too, each side decrypts what the other encrypts. -/
theorem handshake_agreement {p : Primitives} (hp : p.Sound) {identity : LocalIdentity}
    (hidentity : ∀ s, identity.signing_private = some s →
      identity.signing_public = p.ed25519Public s)
    {x_private s_private : Octets 32} {requested : ℕ} {timeout now : ℚ} {initiator waiting : Link}
    (hinit : initiatorInit p identity.toIdentity x_private s_private requested timeout now =
      some initiator)
    {raw : List UInt8} (hrequest : initiatorSetRequestPacket p initiator raw = some waiting)
    {raw' : List UInt8} (hconverted : Packet.Converted raw raw') {private_key : Octets 32}
    {timeout' now' : ℚ} {responder : Link}
    (haccept : responderAccept p identity private_key raw' timeout' now' = some responder)
    {forged : List (List UInt8 × ℚ)} (hrefused : Run.Each (proofStep p)
      (fun link proof => (initiatorAcceptProof p link proof.1 proof.2).1 = false) waiting forged) :
    (∀ k, (Run.final (proofStep p) waiting (forged.take k)).mtu ≤ requested) ∧
    ∃ proof, buildProof p responder = some proof ∧ ∀ now'',
      let accepted := initiatorAcceptProof p (Run.final (proofStep p) waiting forged) proof now''
      accepted.1 = true ∧ accepted.2.state = .active ∧
      accepted.2.link_id = responder.link_id ∧
      accepted.2.derived_key = responder.derived_key ∧
      accepted.2.mtu = min requested Reticulum.mtu ∧
      responder.mtu = min requested Reticulum.mtu ∧ accepted.2.mtu ≤ requested ∧
      ∀ confirmation now''' responder',
        responderAcceptRtt p responder confirmation now''' = (true, responder') →
        ∀ random plaintext capacity token capacity', token.length - 48 ≤ capacity' →
          (encrypt p accepted.2 random plaintext capacity = some token →
            decrypt p responder' token capacity' = some plaintext) ∧
          (encrypt p responder' random plaintext capacity = some token →
            decrypt p accepted.2 token capacity' = some plaintext) := by
  have hwaiting := requested_of_init hinit hrequest
  have hresponder := granted_of_accept hwaiting hconverted haccept
  constructor
  · intro k
    rw [← take_append_drop k forged, Run.each_append] at hrefused
    obtain ⟨a, b, heq⟩ := pending_final hrefused.1
    rw [heq]
    exact hwaiting.mtu_eq.le
  · obtain ⟨proof, hproof, haccepted⟩ := initiatorAcceptProof_genuine hp hwaiting hresponder
      hidentity (pending_final hrefused)
    have hmtu : responder.mtu = min requested Reticulum.mtu := by
      rw [hresponder.mtu_eq, hwaiting.mtu_eq]
    refine ⟨proof, hproof, fun now'' => ?_⟩
    obtain ⟨hok, hactive, hid, hkey, hsame⟩ := haccepted now''
    refine ⟨hok, hactive, hid, hkey, hsame.trans hmtu, hmtu, ?_, ?_⟩
    · rw [hsame, hmtu]
      exact min_le_left _ _
    · intro confirmation now''' responder' hconfirm random plaintext capacity token capacity' hroom
      obtain ⟨hactive', hkey'⟩ := responderAcceptRtt_accepted hconfirm
      exact ⟨fun h => decrypt_encrypt hp.toTokenSound (hkey.trans hkey'.symm) (Or.inl hactive') h hroom,
        fun h => decrypt_encrypt hp.toTokenSound (hkey'.trans hkey.symm) (Or.inl hactive) h hroom⟩

/-! ## A handshake -/

/-- A text padded to whole blocks of 16 bytes, each byte of the padding its length. -/
def padded (plaintext : List UInt8) : List UInt8 :=
  plaintext ++ List.replicate (16 - plaintext.length % 16)
    (UInt8.ofNat (16 - plaintext.length % 16))

/-- Primitives to run a handshake with: a key pair is one key twice, the exchange combines the two
keys byte by byte, a signature is the key before the message, and a token is the padded text. -/
def plainPrimitives : Primitives :=
  { sha256 := ofList 32
    ed25519Verify := fun key message signature =>
      decide (ofList 64 (key.bytes ++ message) = signature)
    x25519Public := id
    x25519Exchange := fun a b => some (ofList 32 (List.zipWith (· ^^^ ·) a.bytes b.bytes))
    hkdfSha256 := fun shared link_id => ofList 64 (shared.bytes ++ link_id.bytes)
    ed25519Public := id
    ed25519Sign := fun key message => ofList 64 (key.bytes ++ message)
    tokenSeal := fun _ random plaintext =>
      random.bytes ++ padded plaintext ++ (Octets.zero 32).bytes
    tokenOpen := fun _ token =>
      let text := (token.drop 16).take (token.length - 48)
      some (text.take (text.length - (text.getLastD 0).toNat))
    doubleBits := fun value => value.num.toNat
    doubleValue := fun bits => some bits }

theorem length_padded (plaintext : List UInt8) :
    (padded plaintext).length = (plaintext.length / 16 + 1) * 16 := by
  simp only [padded, length_append, length_replicate]
  omega

theorem plainPrimitives_sound : plainPrimitives.Sound where
  exchange_comm a b := by
    simp only [plainPrimitives, id, some.injEq]
    rw [zipWith_comm]
    simp only [UInt8.xor_comm]
  verify_iff key message signature := by
    simp [plainPrimitives]
  open_seal key random plaintext := by
    have hlength : (random.bytes ++ padded plaintext ++ (Octets.zero 32).bytes).length - 48 =
        (padded plaintext).length := by
      simp only [length_append, length_eq]
      omega
    have htext : ((random.bytes ++ padded plaintext ++ (Octets.zero 32).bytes).drop 16).take
        (padded plaintext).length = padded plaintext := by
      rw [append_assoc, drop_left' random.length_bytes, take_left]
    have hlast : ((padded plaintext).getLastD 0).toNat = 16 - plaintext.length % 16 := by
      obtain ⟨k, hk⟩ : ∃ k, 16 - plaintext.length % 16 = k + 1 :=
        ⟨15 - plaintext.length % 16, by omega⟩
      rw [padded, hk, replicate_succ', ← append_assoc, getLastD_concat, UInt8.toNat_ofNat_of_lt']
      exact Nat.lt_of_le_of_lt (by omega : k + 1 ≤ 16) (by decide)
    simp only [plainPrimitives, hlength, htext, hlast, some.injEq]
    have hcut : (padded plaintext).length - (16 - plaintext.length % 16) = plaintext.length := by
      rw [length_padded]
      omega
    rw [hcut, padded, take_left]
  length_seal key random plaintext := by
    simp only [plainPrimitives, length_append, length_eq, length_padded]

/-- The identity of a destination. -/
def plainIdentity : LocalIdentity :=
  { encryption_public := Octets.zero 32
    signing_public := ofList 32 [7]
    hash := Octets.zero 16
    signing_private := some (ofList 32 [7]) }

/-- An initiator that asks the destination for an MTU of 1000. -/
def plainInitiator : Link :=
  (initiatorInit plainPrimitives plainIdentity.toIdentity (ofList 32 [1])
    (ofList 32 [2]) 1000 10 0).get (by decide +kernel)

/-- Its request packet with one address. -/
def plainRequest : List UInt8 :=
  [2, 0] ++ (ofList 16 [9]).bytes ++ [0] ++ (ofList 32 [1]).bytes ++
    (ofList 32 [2]).bytes ++ [0x20, 0x03, 0xe8]

/-- The request packet with two addresses, one hop further on. -/
def plainRequest' : List UInt8 :=
  [0x52, 1] ++ (ofList 16 [3]).bytes ++ plainRequest.drop 2

/-- The initiator with the link id. -/
def plainWaiting : Link :=
  (initiatorSetRequestPacket plainPrimitives plainInitiator plainRequest).get (by decide +kernel)

/-- The responder. -/
def plainResponder : Link :=
  (responderAccept plainPrimitives plainIdentity (ofList 32 [5]) plainRequest' 10 1).get
    (by decide +kernel)

/-- A proof with no signature of the destination, for the MTU of 500. -/
def forgedProof : List UInt8 := List.replicate 96 0 ++ [0x20, 0x01, 0xf4]

/-- The initiator refuses the forged proof, accepts the genuine one, and both sides have the MTU
that the responder granted. -/
theorem handshake_agreement_after_forgery :
    ∃ proof, buildProof plainPrimitives plainResponder = some proof ∧
      (let accepted := initiatorAcceptProof plainPrimitives
        (proofStep plainPrimitives plainWaiting (forgedProof, 2)) proof 3
       accepted.1 = true ∧ accepted.2.mtu = 500 ∧ plainResponder.mtu = 500 ∧
       accepted.2.derived_key = plainResponder.derived_key) := by
  have hconverted : Packet.Converted plainRequest plainRequest' := by
    refine ⟨(Packet.decode plainRequest).get (by decide +kernel),
      (Packet.decode plainRequest').get (by decide +kernel), (some_get _).symm,
      (some_get _).symm, ?_⟩
    constructor <;> decide +kernel
  obtain ⟨-, proof, hproof, haccepted⟩ := handshake_agreement plainPrimitives_sound
    (fun s hs => Option.some.inj hs) (some_get _).symm (some_get _).symm hconverted
    (some_get _).symm (show Run.Each (proofStep plainPrimitives)
      (fun link proof => (initiatorAcceptProof plainPrimitives link proof.1 proof.2).1 = false)
      plainWaiting [(forgedProof, 2)] from ⟨by decide +kernel, trivial⟩)
  obtain ⟨hok, -, -, hkey, hmtu, hmtu', -⟩ := haccepted 3
  exact ⟨proof, hproof, hok, hmtu, hmtu', hkey⟩

end Link

end Reticulum
