import HiddenLightning.Attempts
import HiddenLightning.OnionRoutes

/-! # Failures on their way back

A node that fails a payment puts a code and some data in a packet, authenticates it with a key it
shares with the sender and masks it; every node before it masks it once more.  The sender takes off
one layer after the other and looks after each whether the packet authenticates
(`process_onion_failure`).  `reportedBy_iff` says when it takes the failure for the node's that
reported it: if the packet does not happen to authenticate at a node before.

The keys are those of the onion: `nodeSecrets_eq` says that a node derives from the packet it was
handed the secret the sender has for it. -/
namespace HiddenLightning
namespace Onion
open KeyStreams BigEndian

variable {Sk Pk : Type} (c : OnionCrypto Sk Pk)

/-! ## Failure packets -/

/-- `gen_um_from_shared_secret`. -/
def genUm (sharedSecret : Bytes) : Bytes := c.hmac [0x75, 0x6d] sharedSecret

/-- `gen_ammag_from_shared_secret`. -/
def genAmmag (sharedSecret : Bytes) : Bytes := c.hmac [0x61, 0x6d, 0x6d, 0x61, 0x67] sharedSecret

/-- `DecodedOnionErrorPacket`. -/
structure DecodedOnionErrorPacket where
  hmac : Bytes
  failuremsg : Bytes
  pad : Bytes

/-- `Writeable` for a vector of bytes. -/
def writeVec (bytes : Bytes) : Bytes := toBytes 2 bytes.length ++ bytes

/-- `Readable` for a vector of bytes. -/
def readVec : Reader Bytes := fun bytes => do
  let (len, bytes) ← readUint 2 bytes
  readExact len bytes

/-- What of a packet is authenticated: `packet.encode()[32..]`. -/
def DecodedOnionErrorPacket.body (packet : DecodedOnionErrorPacket) : Bytes :=
  writeVec packet.failuremsg ++ writeVec packet.pad

/-- `DecodedOnionErrorPacket::encode`. -/
def DecodedOnionErrorPacket.encode (packet : DecodedOnionErrorPacket) : Bytes :=
  packet.hmac ++ packet.body

/-- `DecodedOnionErrorPacket::read`. -/
def readErrorPacket : Reader DecodedOnionErrorPacket := fun bytes => do
  let (hmac, bytes) ← readExact 32 bytes
  let (failuremsg, bytes) ← readVec bytes
  let (pad, bytes) ← readVec bytes
  return (⟨hmac, failuremsg, pad⟩, bytes)

/-- `encrypt_failure_packet`. -/
def encryptFailurePacket (sharedSecret rawPacket : Bytes) : Bytes :=
  mask (c.chacha (genAmmag c sharedSecret)) 0 rawPacket

/-- `build_failure_packet`.  `none` is the failed assertion. -/
def buildFailurePacket (sharedSecret : Bytes) (failureType : UInt16) (failureData : Bytes) :
    Option DecodedOnionErrorPacket :=
  if 256 - 2 < failureData.length then none
  else
    let packet : DecodedOnionErrorPacket :=
      ⟨zeros 32, toBytes 2 failureType.toNat ++ failureData, zeros (256 - 2 - failureData.length)⟩
    some { packet with hmac := c.hmac (genUm c sharedSecret) packet.body }

/-- `build_first_hop_failure_packet`. -/
def buildFirstHopFailurePacket (sharedSecret : Bytes) (failureType : UInt16)
    (failureData : Bytes) : Option Bytes :=
  (buildFailurePacket c sharedSecret failureType failureData).map fun packet =>
    encryptFailurePacket c sharedSecret packet.encode

/-- The nodes before the one that failed hand the packet back, each with a layer of its own
(`fail_htlc_backwards_internal`).  The secrets are in the order of the path. -/
def handBack : List Bytes → Bytes → Bytes
  | [], packet => packet
  | sharedSecret :: before, packet => encryptFailurePacket c sharedSecret (handBack before packet)

/-- The failure message of a packet that authenticates. -/
def authenticate (sharedSecret packetDecrypted : Bytes) : Option Bytes :=
  match readErrorPacket packetDecrypted with
  | .ok (errPacket, _) =>
    if c.hmac (genUm c sharedSecret) errPacket.body = errPacket.hmac then some errPacket.failuremsg
    else none
  | .error _ => none

/-- The loop of `process_onion_failure`, up to what is done with the message: the packet is
decrypted hop by hop, and for each hop it is noted whether it authenticates there. -/
def decryptFailure : List Bytes → Bytes → List (Option Bytes)
  | [], _ => []
  | sharedSecret :: secrets, packet =>
    let packetDecrypted := mask (c.chacha (genAmmag c sharedSecret)) 0 packet
    authenticate c sharedSecret packetDecrypted :: decryptFailure secrets packetDecrypted

/-! ## The layers come off -/

variable {c}

@[simp] theorem length_decryptFailure (secrets : List Bytes) (packet : Bytes) :
    (decryptFailure c secrets packet).length = secrets.length := by
  induction secrets generalizing packet with
  | nil => rfl
  | cons sharedSecret secrets ih => simp [decryptFailure, ih]

/-- After the layers of the nodes before it, the packet is the one the node handed back. -/
theorem decryptFailure_handBack (before after : List Bytes) (packet : Bytes) :
    decryptFailure c (before ++ after) (handBack c before packet) =
      decryptFailure c before (handBack c before packet) ++ decryptFailure c after packet := by
  induction before with
  | nil => rfl
  | cons sharedSecret before ih =>
    simp only [List.cons_append, handBack, decryptFailure, encryptFailurePacket, mask_mask, ih]

theorem readVec_readsBack {bytes : Bytes} (h : bytes.length < 2 ^ 16) :
    ReadsBack readVec (writeVec bytes) bytes := by
  intro rest
  rw [readVec, writeVec, List.append_assoc, readUint_readsBack (by omega)]
  exact readExact_readsBack rfl rest

/-- A failure packet is read back as it was encoded. -/
theorem readErrorPacket_encode {packet : DecodedOnionErrorPacket} (hhmac : packet.hmac.length = 32)
    (hmsg : packet.failuremsg.length < 2 ^ 16) (hpad : packet.pad.length < 2 ^ 16) :
    readErrorPacket packet.encode = .ok (packet, []) := by
  have hend := (readVec_readsBack hpad).nil
  rw [readErrorPacket, DecodedOnionErrorPacket.encode, readExact_readsBack hhmac]
  simp only [bind, Except.bind, DecodedOnionErrorPacket.body]
  rw [readVec_readsBack hmsg]
  dsimp only
  rw [hend]
  rfl

/-- A failure packet authenticates at the node that made it. -/
theorem authenticate_encode (lawful : c.Lawful) {sharedSecret failureData : Bytes}
    {failureType : UInt16} {packet : DecodedOnionErrorPacket}
    (h : buildFailurePacket c sharedSecret failureType failureData = some packet) :
    authenticate c sharedSecret packet.encode =
      some (toBytes 2 failureType.toNat ++ failureData) := by
  unfold buildFailurePacket at h
  split at h
  · simp at h
  · rename_i hdata
    obtain rfl := Option.some.inj h
    rw [authenticate, readErrorPacket_encode (lawful.length_hmac _ _) (by simp; omega)
      (by simp; omega)]
    exact if_pos rfl

theorem codeOfBytes_toBytes (code : UInt16) (data : Bytes) :
    ∃ hi lo, toBytes 2 code.toNat ++ data = hi :: lo :: data ∧ codeOfBytes hi lo = code := by
  refine ⟨UInt8.ofNat (code.toNat / 256 % 256), UInt8.ofNat (code.toNat % 256),
    by simp [toBytes], ?_⟩
  have hcode := code.toNat_lt
  rw [codeOfBytes, ← UInt16.toNat_inj]
  simp only [UInt8.toNat_ofNat', UInt16.toNat_ofNat']
  omega

/-- A failure is reported by the first node at which the packet authenticates. -/
theorem reportedBy_append_iff {before after : List (Option Bytes)} {hi lo : UInt8} {data : Bytes} :
    ReportedBy (before ++ some (hi :: lo :: data) :: after) before.length (codeOfBytes hi lo) ↔
      ∀ m ∈ before, m = none := by
  induction before with
  | nil => exact iff_of_true (.here hi lo data after) (by simp)
  | cons m before ih =>
    rw [List.cons_append, List.length_cons, List.forall_mem_cons, ← ih]
    constructor
    · rintro (_ | h)
      exact ⟨rfl, h⟩
    · rintro ⟨rfl, h⟩
      exact .later h

/-! ## The secrets are the same on both sides -/

/-- The secrets the nodes of a path derive, each from its own key and the public key of the packet
it is handed. -/
def nodeSecrets (c : OnionCrypto Sk Pk) : List Sk → Option Pk → List Bytes
  | [], _ => []
  | _ :: _, none => []
  | node :: nodes, some packetPubkey =>
    let sharedSecret := c.sharedSecret packetPubkey node
    sharedSecret :: nodeSecrets c nodes (nextHopPacketPubkey c packetPubkey sharedSecret)

theorem nodeSecrets_eq (lawful : c.Lawful) {nodes : List Sk} {priv : Sk}
    {secrets : List (Bytes × Pk)}
    (h : onionSecrets c (nodes.map c.fromSecretKey) priv = some secrets) :
    nodeSecrets c nodes (some (c.fromSecretKey priv)) = secrets.map Prod.fst := by
  induction nodes generalizing priv secrets with
  | nil =>
    obtain rfl : [] = secrets := by simpa [onionSecrets] using h
    rfl
  | cons node nodes ih =>
    obtain ⟨next, rest, hnext, hrest, rfl⟩ := onionSecrets_cons h
    have hpubkey : nextHopPacketPubkey c (c.fromSecretKey priv)
        (c.sharedSecret (c.fromSecretKey node) priv) = some (c.fromSecretKey next) :=
      lawful.mulPublic_fromSecretKey hnext
    simp only [nodeSecrets, lawful.sharedSecret_comm priv node, hpubkey, List.map_cons, ih hrest]

/-- A failure that the node after `before` reports, and the nodes in `before` hand back, each with
the secret it derives itself: the sender takes it for that node's, with its code, if and only if
the packet does not authenticate at a node before. -/
theorem failure_attributed_iff (lawful : c.Lawful) {nodes : List Sk} {sessionPriv : Sk}
    {secrets : List (Bytes × Pk)}
    (hsecrets : onionSecrets c (nodes.map c.fromSecretKey) sessionPriv = some secrets)
    {before after : List Bytes} {sharedSecret : Bytes}
    (hnodes : nodeSecrets c nodes (some (c.fromSecretKey sessionPriv)) =
      before ++ sharedSecret :: after)
    {failureType : UInt16} {failureData packet : Bytes}
    (hbuild : buildFirstHopFailurePacket c sharedSecret failureType failureData = some packet) :
    ReportedBy (decryptFailure c (secrets.map Prod.fst) (handBack c before packet)) before.length
        failureType ↔
      ∀ m ∈ decryptFailure c before (handBack c before packet), m = none := by
  obtain ⟨errPacket, herr, rfl⟩ := Option.map_eq_some_iff.mp hbuild
  obtain ⟨hi, lo, hbytes, hcode⟩ := codeOfBytes_toBytes failureType failureData
  have hmessage := authenticate_encode lawful herr
  rw [hbytes] at hmessage
  have hlength : before.length = (decryptFailure c before (handBack c before
      (encryptFailurePacket c sharedSecret errPacket.encode))).length := by simp
  rw [← nodeSecrets_eq lawful hsecrets, hnodes, decryptFailure_handBack, decryptFailure,
    encryptFailurePacket, mask_mask, hmessage, hlength, ← hcode, encryptFailurePacket]
  exact reportedBy_append_iff

/-! ## Two hops -/

/-- The secrets of the two nodes of `twoHops`, with the session key 3. -/
def toySecrets : List (Bytes × Nat) := (onionSecrets toyCrypto [5, 7] 3).getD []

/-- That of the first node. -/
def toyBefore : List Bytes := (toySecrets.map Prod.fst).take 1

/-- That of the second. -/
def toyLast : Bytes := (toySecrets.map Prod.fst)[1]?.getD []

/-- The second node does not know the payment. -/
def toyFailure : Bytes :=
  (buildFirstHopFailurePacket toyCrypto toyLast 0x400f [1, 2]).getD []

theorem toySecrets_eq : onionSecrets toyCrypto ([5, 7].map toyCrypto.fromSecretKey) 3 =
    some toySecrets := by
  decide +kernel

theorem nodeSecrets_toy : nodeSecrets toyCrypto [5, 7] (some (toyCrypto.fromSecretKey 3)) =
    toyBefore ++ toyLast :: [] := by
  decide +kernel

theorem toyFailure_eq : buildFirstHopFailurePacket toyCrypto toyLast 0x400f [1, 2] =
    some toyFailure := by
  decide +kernel

theorem failure_attributed_two_hops :
    ReportedBy (decryptFailure toyCrypto (toySecrets.map Prod.fst)
      (handBack toyCrypto toyBefore toyFailure)) 1 0x400f :=
  (failure_attributed_iff toyCrypto_lawful toySecrets_eq nodeSecrets_toy toyFailure_eq).mpr
    (by decide +kernel)

end Onion
end HiddenLightning
