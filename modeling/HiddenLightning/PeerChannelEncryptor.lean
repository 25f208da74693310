import HiddenLightning.BigEndian
import HiddenLightning.HexUtils
import HiddenLightning.KeyStreams

/-! # The encrypted channel between two peers

Two peers that connect exchange three acts, in which each gives the other an ephemeral key and the
one that connects its node id.  Each act mixes another shared secret into a chaining key, and is
authenticated with a key derived from it, over a hash of all that has been sent.  At the end both
derive a key for either direction.  A message is then sent as its length and itself, each encrypted
under the next nonce, and the key is replaced after 1000 of them.

`handshake_one`, `handshake_two` and `handshake_three` follow the handshake of two honest peers;
`decryptLengthHeader_header` and `decryptMessage_body` say that what one seals the other opens, if
the one receives with what the other sends with. -/
namespace HiddenLightning
namespace Noise
open KeyStreams HexUtils

abbrev Bytes := List UInt8

/-! ## Ciphers -/

/-- The curve, the hash functions, the stream cipher and the authenticator. -/
structure NoiseCrypto (Sk Pk : Type) where
  fromSecretKey : Sk → Pk
  serialize : Pk → Bytes
  fromSlice : Bytes → Option Pk
  /-- `SharedSecret::new`. -/
  sharedSecret : Pk → Sk → Bytes
  sha256 : Bytes → Bytes
  /-- `Hmac<Sha256>`: the key, then the message. -/
  hmac : Bytes → Bytes → Bytes
  /-- `ChaCha20`: the key, the nonce, then the position. -/
  chacha : Bytes → Bytes → Nat → UInt8
  /-- `Poly1305`: the key, then the message. -/
  poly1305 : Bytes → Bytes → Bytes

/-- **What is assumed of them**: the two sides of a key exchange get the same secret, and a public
key is read back from its 33 bytes; a tag has 16 bytes. -/
structure NoiseCrypto.Lawful {Sk Pk : Type} (c : NoiseCrypto Sk Pk) : Prop where
  sharedSecret_comm : ∀ a b, c.sharedSecret (c.fromSecretKey a) b =
    c.sharedSecret (c.fromSecretKey b) a
  length_serialize : ∀ key, (c.serialize key).length = 33
  fromSlice_serialize : ∀ key, c.fromSlice (c.serialize key) = some key
  length_poly1305 : ∀ key message, (c.poly1305 key message).length = 16

/-- How a call fails: a panic, or a `LightningError` that disconnects the peer. -/
inductive Fault where
  | panic
  | lightning (err : String)
  deriving DecidableEq, Repr

variable {Sk Pk : Type} (c : NoiseCrypto Sk Pk)

/-- `to_le_bytes` of a `u64`. -/
def toLeBytes (n : Nat) : Bytes := (BigEndian.toBytes 8 n).reverse

/-- `pad_mac_16`. -/
def padMac16 (len : Nat) : Bytes := if len % 16 = 0 then [] else zeros (16 - len % 16)

/-- The nonce of `encrypt_with_ad` and `decrypt_with_ad`, less its four leading zeros: what
`ChaCha20` is given of it. -/
def chachaStream (key : Bytes) (n : Nat) : Nat → UInt8 := c.chacha key (toLeBytes n)

/-- The tag of a message, as `ChaCha20Poly1305RFC` computes it: the first 64 bytes of the stream are
drawn for the key of the authenticator, which takes 32 of them. -/
def chachaTag (key : Bytes) (n : Nat) (aad cyphertext : Bytes) : Bytes :=
  c.poly1305 ((mask (chachaStream c key n) 0 (zeros 64)).take 32)
    (aad ++ padMac16 aad.length ++ cyphertext ++ padMac16 cyphertext.length ++
      toLeBytes aad.length ++ toLeBytes cyphertext.length)

/-- `encrypt_with_ad`. -/
def encryptWithAd (n : Nat) (key h plaintext : Bytes) : Bytes :=
  mask (chachaStream c key n) 64 plaintext ++
    chachaTag c key n h (mask (chachaStream c key n) 64 plaintext)

/-- `decrypt_with_ad`. -/
def decryptWithAd (n : Nat) (key h cyphertext : Bytes) : Except Fault Bytes :=
  -- `cyphertext.len() - 16`
  if cyphertext.length < 16 then .error .panic
  else if chachaTag c key n h (cyphertext.take (cyphertext.length - 16)) =
      cyphertext.drop (cyphertext.length - 16) then
    .ok (mask (chachaStream c key n) 64 (cyphertext.take (cyphertext.length - 16)))
  else .error (.lightning "Bad MAC")

/-- `hkdf_extract_expand_twice`. -/
def hkdfExtractExpandTwice (salt ikm : Bytes) : Bytes × Bytes :=
  (c.hmac (c.hmac salt ikm) [1],
    c.hmac (c.hmac salt ikm) (c.hmac (c.hmac salt ikm) [1] ++ [2]))

/-! ## States -/

/-- `NOISE_CK`. -/
def noiseCk : Bytes := [
  0x26, 0x40, 0xf5, 0x2e, 0xeb, 0xcd, 0x9e, 0x88, 0x29, 0x58, 0x95, 0x1c, 0x79, 0x42, 0x50, 0xee,
  0xdb, 0x28, 0x00, 0x2c, 0x05, 0xd7, 0xdc, 0x2e, 0xa0, 0xf1, 0x95, 0x40, 0x60, 0x42, 0xca, 0xf1]

/-- `NOISE_H`. -/
def noiseH : Bytes := [
  0xd1, 0xfb, 0xf6, 0xde, 0xe4, 0xf6, 0x86, 0xf1, 0x32, 0xfd, 0x70, 0x2c, 0x4a, 0xbf, 0x8f, 0xba,
  0x4b, 0xb4, 0x20, 0xd8, 0x9d, 0x2a, 0x04, 0x8a, 0x3c, 0x4f, 0x4c, 0x09, 0x2e, 0x37, 0xb6, 0x76]

/-- `LN_MAX_MSG_LEN`. -/
def lnMaxMsgLen : Nat := 65535

/-- `NextNoiseStep`. -/
inductive NextNoiseStep where
  | actOne
  | actTwo
  | actThree
  | noiseComplete
  deriving DecidableEq, Repr

/-- `NoiseStep`. -/
inductive NoiseStep where
  | preActOne
  | postActOne
  | postActTwo
  deriving DecidableEq, Repr

/-- `BidirectionalNoiseState`. -/
structure BidirectionalNoiseState where
  h : Bytes
  ck : Bytes

/-- `DirectionalNoiseState`. -/
inductive DirectionalNoiseState (Sk Pk : Type) where
  | outbound (ie : Sk)
  | inbound (ie : Option Pk) (re : Option Sk) (tempK2 : Option Bytes)

/-- Three fields of `NoiseState::Finished`, for one direction: `sk`, `sn` and `sck` for what is
sent, `rk`, `rn` and `rck` for what is received. -/
structure CipherState where
  k : Bytes
  n : Nat
  ck : Bytes

/-- `NoiseState`. -/
inductive NoiseState (Sk Pk : Type) where
  | inProgress (state : NoiseStep) (directionalState : DirectionalNoiseState Sk Pk)
      (bidirectionalState : BidirectionalNoiseState)
  | finished (send receive : CipherState)

/-- `PeerChannelEncryptor`. -/
structure PeerChannelEncryptor (Sk Pk : Type) where
  theirNodeId : Option Pk
  noiseState : NoiseState Sk Pk

/-! ## The handshake -/

/-- The hash both sides start from, with the node id of the one that is connected to. -/
def startState (nodeId : Pk) : BidirectionalNoiseState :=
  ⟨c.sha256 (noiseH ++ c.serialize nodeId), noiseCk⟩

/-- `PeerChannelEncryptor::new_outbound`. -/
def newOutbound (theirNodeId : Pk) (ephemeralKey : Sk) : PeerChannelEncryptor Sk Pk :=
  ⟨some theirNodeId, .inProgress .preActOne (.outbound ephemeralKey) (startState c theirNodeId)⟩

/-- `PeerChannelEncryptor::new_inbound`. -/
def newInbound (ourNodeSecret : Sk) : PeerChannelEncryptor Sk Pk :=
  ⟨none, .inProgress .preActOne (.inbound none none none)
    (startState c (c.fromSecretKey ourNodeSecret))⟩

/-- The hash, with `bytes` mixed in. -/
def mixHash (state : BidirectionalNoiseState) (bytes : Bytes) : BidirectionalNoiseState :=
  { state with h := c.sha256 (state.h ++ bytes) }

/-- `PeerChannelEncryptor::hkdf`. -/
def hkdf (state : BidirectionalNoiseState) (ss : Bytes) : BidirectionalNoiseState × Bytes :=
  ({ state with ck := (hkdfExtractExpandTwice c state.ck ss).1 },
    (hkdfExtractExpandTwice c state.ck ss).2)

/-- `outbound_noise_act`: the act, and the key it is authenticated with. -/
def outboundNoiseAct (state : BidirectionalNoiseState) (ourKey : Sk) (theirKey : Pk) :
    BidirectionalNoiseState × Bytes × Bytes :=
  let ourPub := c.serialize (c.fromSecretKey ourKey)
  let (state, tempK) := hkdf c (mixHash c state ourPub) (c.sharedSecret theirKey ourKey)
  let tag := encryptWithAd c 0 tempK state.h []
  (mixHash c state tag, 0 :: ourPub ++ tag, tempK)

/-- The text for a first byte that is not 0. -/
def unknownVersion (act : Bytes) : String :=
  "Unknown handshake version number " ++ toString (act.headD 0).toNat

/-- `inbound_noise_act`. -/
def inboundNoiseAct (state : BidirectionalNoiseState) (act : Bytes) (ourKey : Sk) :
    Except Fault (BidirectionalNoiseState × Pk × Bytes) :=
  -- `assert_eq!(act.len(), 50)`
  if act.length ≠ 50 then .error .panic
  else if act.headD 0 ≠ 0 then .error (.lightning (unknownVersion act))
  else
    match c.fromSlice ((act.drop 1).take 33) with
    | none =>
      .error (.lightning ("Invalid public key " ++ String.ofList (hexStr ((act.drop 1).take 33))))
    | some theirPub => do
      let (state, tempK) := hkdf c (mixHash c state (c.serialize theirPub))
        (c.sharedSecret theirPub ourKey)
      let _ ← decryptWithAd c 0 tempK state.h (act.drop 34)
      return (mixHash c state (act.drop 34), theirPub, tempK)

/-- `get_act_one`. -/
def getActOne (e : PeerChannelEncryptor Sk Pk) :
    Except Fault (PeerChannelEncryptor Sk Pk × Bytes) :=
  match e.noiseState, e.theirNodeId with
  | .inProgress .preActOne (.outbound ie) bidirectionalState, some theirNodeId =>
    let (state, res, _) := outboundNoiseAct c bidirectionalState ie theirNodeId
    .ok (⟨e.theirNodeId, .inProgress .postActOne (.outbound ie) state⟩, res)
  | _, _ => .error .panic

/-- `process_act_one_with_keys`. -/
def processActOneWithKeys (e : PeerChannelEncryptor Sk Pk) (actOne : Bytes)
    (ourNodeSecret ourEphemeral : Sk) : Except Fault (PeerChannelEncryptor Sk Pk × Bytes) :=
  match e.noiseState with
  | .inProgress .preActOne (.inbound ie re _) bidirectionalState => do
    let (state, theirPub, _) ← inboundNoiseAct c bidirectionalState actOne ourNodeSecret
    let (state, res, tempK) :=
      outboundNoiseAct c state (re.getD ourEphemeral) (ie.getD theirPub)
    return (⟨e.theirNodeId, .inProgress .postActTwo
      (.inbound (some (ie.getD theirPub)) (some (re.getD ourEphemeral)) (some tempK)) state⟩, res)
  | _ => .error .panic

/-- `process_act_two`: act three, and the node id of the peer. -/
def processActTwo (e : PeerChannelEncryptor Sk Pk) (actTwo : Bytes) (ourNodeSecret : Sk) :
    Except Fault (PeerChannelEncryptor Sk Pk × Bytes × Pk) :=
  match e.noiseState with
  | .inProgress .postActOne (.outbound ie) bidirectionalState => do
    let (state, re, tempK2) ← inboundNoiseAct c bidirectionalState actTwo ie
    let key := encryptWithAd c 1 tempK2 state.h (c.serialize (c.fromSecretKey ourNodeSecret))
    let (state, tempK) := hkdf c (mixHash c state key) (c.sharedSecret re ourNodeSecret)
    let tag := encryptWithAd c 0 tempK state.h []
    let (sk, rk) := hkdfExtractExpandTwice c state.ck []
    match e.theirNodeId with
    | some theirNodeId =>
      return (⟨some theirNodeId, .finished ⟨sk, 0, state.ck⟩ ⟨rk, 0, state.ck⟩⟩, 0 :: key ++ tag,
        theirNodeId)
    | none => .error .panic
  | _ => .error .panic

/-- `process_act_three`: the node id of the peer. -/
def processActThree (e : PeerChannelEncryptor Sk Pk) (actThree : Bytes) :
    Except Fault (PeerChannelEncryptor Sk Pk × Pk) :=
  -- `assert_eq!(act_three.len(), 66)`
  if actThree.length ≠ 66 then .error .panic
  else
    match e.noiseState with
    | .inProgress .postActTwo (.inbound _ (some re) (some tempK2)) bidirectionalState =>
      if actThree.headD 0 ≠ 0 then .error (.lightning (unknownVersion actThree))
      else do
        let key := (actThree.drop 1).take 49
        let theirNodeId ← decryptWithAd c 1 tempK2 bidirectionalState.h key
        match c.fromSlice theirNodeId with
        | none =>
          .error (.lightning ("Bad node_id from peer, " ++ String.ofList (hexStr theirNodeId)))
        | some theirNodeId =>
          let (state, tempK) := hkdf c (mixHash c bidirectionalState key)
            (c.sharedSecret theirNodeId re)
          let _ ← decryptWithAd c 0 tempK state.h (actThree.drop 50)
          let (rk, sk) := hkdfExtractExpandTwice c state.ck []
          return (⟨some theirNodeId, .finished ⟨sk, 0, state.ck⟩ ⟨rk, 0, state.ck⟩⟩, theirNodeId)
    | _ => .error .panic

/-! ## Messages -/

/-- A key is replaced once 1000 nonces have been used with it. -/
def CipherState.rotate (s : CipherState) : CipherState :=
  if 1000 ≤ s.n then
    ⟨(hkdfExtractExpandTwice c s.ck s.k).2, 0, (hkdfExtractExpandTwice c s.ck s.k).1⟩
  else s

/-- `encrypt_message`. -/
def encryptMessage (e : PeerChannelEncryptor Sk Pk) (msg : Bytes) :
    Except Fault (PeerChannelEncryptor Sk Pk × Bytes) :=
  if lnMaxMsgLen < msg.length then .error .panic
  else
    match e.noiseState with
    | .finished send receive =>
      let s := send.rotate c
      .ok (⟨e.theirNodeId, .finished ⟨s.k, s.n + 2, s.ck⟩ receive⟩,
        encryptWithAd c s.n s.k [] (BigEndian.toBytes 2 msg.length) ++
          encryptWithAd c (s.n + 1) s.k [] msg)
    | _ => .error .panic

/-- `decrypt_length_header`. -/
def decryptLengthHeader (e : PeerChannelEncryptor Sk Pk) (msg : Bytes) :
    Except Fault (PeerChannelEncryptor Sk Pk × Nat) :=
  -- `assert_eq!(msg.len(), 16+2)`
  if msg.length ≠ 18 then .error .panic
  else
    match e.noiseState with
    | .finished send receive => do
      let s := receive.rotate c
      let res ← decryptWithAd c s.n s.k [] msg
      return (⟨e.theirNodeId, .finished send ⟨s.k, s.n + 1, s.ck⟩⟩, BigEndian.ofBytes res)
    | _ => .error .panic

/-- `decrypt_message`. -/
def decryptMessage (e : PeerChannelEncryptor Sk Pk) (msg : Bytes) :
    Except Fault (PeerChannelEncryptor Sk Pk × Bytes) :=
  if lnMaxMsgLen + 16 < msg.length then .error .panic
  else
    match e.noiseState with
    | .finished send receive => do
      let res ← decryptWithAd c receive.n receive.k [] msg
      return (⟨e.theirNodeId, .finished send { receive with n := receive.n + 1 }⟩, res)
    | _ => .error .panic

/-- `get_noise_step`. -/
def PeerChannelEncryptor.getNoiseStep (e : PeerChannelEncryptor Sk Pk) : NextNoiseStep :=
  match e.noiseState with
  | .inProgress .preActOne _ _ => .actOne
  | .inProgress .postActOne _ _ => .actTwo
  | .inProgress .postActTwo _ _ => .actThree
  | .finished _ _ => .noiseComplete

/-- `is_ready_for_encryption`. -/
def PeerChannelEncryptor.isReadyForEncryption (e : PeerChannelEncryptor Sk Pk) : Bool :=
  match e.noiseState with
  | .inProgress _ _ _ => false
  | .finished _ _ => true

/-! ## What one encrypts the other decrypts -/

section Lawful
variable {c} (hc : c.Lawful)
include hc

@[simp] theorem length_encryptWithAd (n : Nat) (key h plaintext : Bytes) :
    (encryptWithAd c n key h plaintext).length = plaintext.length + 16 := by
  simp [encryptWithAd, chachaTag, hc.length_poly1305]

@[simp] theorem decryptWithAd_encryptWithAd (n : Nat) (key h plaintext : Bytes) :
    decryptWithAd c n key h (encryptWithAd c n key h plaintext) = .ok plaintext := by
  have hlen : (encryptWithAd c n key h plaintext).length - 16 =
      (mask (chachaStream c key n) 64 plaintext).length := by
    rw [length_encryptWithAd hc, length_mask, Nat.add_sub_cancel]
  rw [decryptWithAd, if_neg (by rw [length_encryptWithAd hc]; omega), hlen, encryptWithAd,
    List.take_left, List.drop_left, if_pos rfl, mask_mask]

theorem length_outboundNoiseAct (state : BidirectionalNoiseState) (ourKey : Sk) (theirKey : Pk) :
    (outboundNoiseAct c state ourKey theirKey).2.1.length = 50 := by
  simp [outboundNoiseAct, hc.length_serialize, length_encryptWithAd hc]

/-- **An act is accepted** by the one whose key it was made for, and both go on from the same
state. -/
theorem inboundNoiseAct_outboundNoiseAct (state : BidirectionalNoiseState) (a b : Sk) :
    inboundNoiseAct c state (outboundNoiseAct c state a (c.fromSecretKey b)).2.1 b =
      .ok ((outboundNoiseAct c state a (c.fromSecretKey b)).1, c.fromSecretKey a,
        (outboundNoiseAct c state a (c.fromSecretKey b)).2.2) := by
  have hkey := hc.length_serialize (c.fromSecretKey a)
  rw [inboundNoiseAct, if_neg (by simp [length_outboundNoiseAct hc])]
  simp only [outboundNoiseAct, List.cons_append, List.headD_cons, ne_eq, not_true_eq_false,
    if_false, List.drop_succ_cons, List.drop_zero]
  have htake : ∀ tag, (c.serialize (c.fromSecretKey a) ++ tag).take 33 =
      c.serialize (c.fromSecretKey a) := fun tag => hkey ▸ List.take_left
  have hdrop : ∀ tag, (c.serialize (c.fromSecretKey a) ++ tag).drop 33 = tag :=
    fun tag => hkey ▸ List.drop_left
  rw [htake, hc.fromSlice_serialize]
  simp only [hdrop, hc.sharedSecret_comm b a, decryptWithAd_encryptWithAd hc]
  rfl

end Lawful

/-! ## The handshake of two peers

The one that connects has the node secret `a` and the ephemeral key `e`, the other one `b` and `f`.
-/

section Handshake
variable (a e b f : Sk)

/-- The first act, with the state after it and its key. -/
def actOne : BidirectionalNoiseState × Bytes × Bytes :=
  outboundNoiseAct c (startState c (c.fromSecretKey b)) e (c.fromSecretKey b)

/-- The second. -/
def actTwo : BidirectionalNoiseState × Bytes × Bytes :=
  outboundNoiseAct c (actOne c e b).1 f (c.fromSecretKey e)

/-- The first part of the third: the node id of the one that connects. -/
def actThreeKey : Bytes :=
  encryptWithAd c 1 (actTwo c e b f).2.2 (actTwo c e b f).1.h (c.serialize (c.fromSecretKey a))

/-- The state after the third act, with its key. -/
def actThreeState : BidirectionalNoiseState × Bytes :=
  hkdf c (mixHash c (actTwo c e b f).1 (actThreeKey c a e b f))
    (c.sharedSecret (c.fromSecretKey f) a)

/-- The third act. -/
def actThree : Bytes :=
  0 :: actThreeKey c a e b f ++
    encryptWithAd c 0 (actThreeState c a e b f).2 (actThreeState c a e b f).1.h []

/-- What the one that connects sends with, in the end. -/
def outgoing : CipherState :=
  ⟨(hkdfExtractExpandTwice c (actThreeState c a e b f).1.ck []).1, 0,
    (actThreeState c a e b f).1.ck⟩

/-- What it receives with. -/
def incoming : CipherState :=
  ⟨(hkdfExtractExpandTwice c (actThreeState c a e b f).1.ck []).2, 0,
    (actThreeState c a e b f).1.ck⟩

/-- The one that connects, before the second act. -/
def awaitingTwo : PeerChannelEncryptor Sk Pk :=
  ⟨some (c.fromSecretKey b), .inProgress .postActOne (.outbound e) (actOne c e b).1⟩

/-- The other one, before the third. -/
def awaitingThree : PeerChannelEncryptor Sk Pk :=
  ⟨none, .inProgress .postActTwo
    (.inbound (some (c.fromSecretKey e)) (some f) (some (actTwo c e b f).2.2)) (actTwo c e b f).1⟩

variable {c} (hc : c.Lawful)
include hc

theorem length_actOne : (actOne c e b).2.1.length = 50 := length_outboundNoiseAct hc _ _ _

theorem length_actTwo : (actTwo c e b f).2.1.length = 50 := length_outboundNoiseAct hc _ _ _

theorem length_actThreeKey : (actThreeKey c a e b f).length = 49 := by
  rw [actThreeKey, length_encryptWithAd hc, hc.length_serialize]

theorem length_actThree : (actThree c a e b f).length = 66 := by
  simp [actThree, length_actThreeKey a e b f hc, length_encryptWithAd hc]

theorem handshake_one : processActOneWithKeys c (newInbound c b) (actOne c e b).2.1 b f =
    .ok (awaitingThree c e b f, (actTwo c e b f).2.1) := by
  have haccept := inboundNoiseAct_outboundNoiseAct hc (startState c (c.fromSecretKey b)) e b
  simp only [processActOneWithKeys, newInbound, actOne, haccept]
  rfl

theorem handshake_two : processActTwo c (awaitingTwo c e b) (actTwo c e b f).2.1 a =
    .ok (⟨some (c.fromSecretKey b), .finished (outgoing c a e b f) (incoming c a e b f)⟩,
      actThree c a e b f, c.fromSecretKey b) := by
  have haccept := inboundNoiseAct_outboundNoiseAct hc (actOne c e b).1 f e
  simp only [processActTwo, awaitingTwo, actTwo, haccept]
  rfl

theorem handshake_three : processActThree c (awaitingThree c e b f) (actThree c a e b f) =
    .ok (⟨some (c.fromSecretKey a), .finished (incoming c a e b f) (outgoing c a e b f)⟩,
      c.fromSecretKey a) := by
  have hkey : ((actThree c a e b f).drop 1).take 49 = actThreeKey c a e b f := by
    have hlen := length_actThreeKey a e b f hc
    simp only [actThree, List.cons_append, List.drop_succ_cons, List.drop_zero]
    exact hlen ▸ List.take_left
  have htag : (actThree c a e b f).drop 50 =
      encryptWithAd c 0 (actThreeState c a e b f).2 (actThreeState c a e b f).1.h [] := by
    have hlen := length_actThreeKey a e b f hc
    simp only [actThree, List.cons_append, List.drop_succ_cons]
    exact hlen ▸ List.drop_left
  have hid : decryptWithAd c 1 (actTwo c e b f).2.2 (actTwo c e b f).1.h (actThreeKey c a e b f) =
      .ok (c.serialize (c.fromSecretKey a)) := decryptWithAd_encryptWithAd hc _ _ _ _
  have hstate : hkdf c (mixHash c (actTwo c e b f).1 (actThreeKey c a e b f))
      (c.sharedSecret (c.fromSecretKey a) f) = actThreeState c a e b f := by
    rw [hc.sharedSecret_comm a f, actThreeState]
  rw [processActThree, if_neg (by simp [length_actThree a e b f hc])]
  simp only [awaitingThree, hkey, htag, hid, bind, Except.bind, hc.fromSlice_serialize, hstate,
    decryptWithAd_encryptWithAd hc]
  rw [if_neg (by simp [actThree])]
  rfl

end Handshake

/-! ## Sealed messages -/

/-- The encrypted length of a message. -/
def header (s : CipherState) (msg : Bytes) : Bytes :=
  encryptWithAd c (s.rotate c).n (s.rotate c).k [] (BigEndian.toBytes 2 msg.length)

/-- The encrypted message. -/
def body (s : CipherState) (msg : Bytes) : Bytes :=
  encryptWithAd c ((s.rotate c).n + 1) (s.rotate c).k [] msg

/-- The state between the length and the message. -/
def CipherState.opened (s : CipherState) : CipherState :=
  ⟨(s.rotate c).k, (s.rotate c).n + 1, (s.rotate c).ck⟩

/-- The state after the message. -/
def CipherState.next (s : CipherState) : CipherState :=
  ⟨(s.rotate c).k, (s.rotate c).n + 2, (s.rotate c).ck⟩

/-- What is sent for a list of messages. -/
def sealAll : CipherState → List Bytes → Bytes
  | _, [] => []
  | s, msg :: msgs => header c s msg ++ body c s msg ++ sealAll (s.next c) msgs

/-- The state after them. -/
def CipherState.after : CipherState → List Bytes → CipherState
  | s, [] => s
  | s, _ :: msgs => (s.next c).after msgs

theorem after_concat (s : CipherState) (msgs : List Bytes) (msg : Bytes) :
    s.after c (msgs ++ [msg]) = (s.after c msgs).next c := by
  induction msgs generalizing s with
  | nil => rfl
  | cons first msgs ih => exact ih (s.next c)

theorem sealAll_concat (s : CipherState) (msgs : List Bytes) (msg : Bytes) :
    sealAll c s (msgs ++ [msg]) =
      sealAll c s msgs ++ (header c (s.after c msgs) msg ++ body c (s.after c msgs) msg) := by
  induction msgs generalizing s with
  | nil => simp [sealAll, CipherState.after]
  | cons first msgs ih =>
    simp only [List.cons_append, sealAll, CipherState.after, ih, List.append_assoc]

theorem encryptMessage_finished {msg : Bytes} (hlen : msg.length ≤ lnMaxMsgLen)
    (nodeId : Option Pk) (s r : CipherState) :
    encryptMessage c ⟨nodeId, .finished s r⟩ msg =
      .ok (⟨nodeId, .finished (s.next c) r⟩, header c s msg ++ body c s msg) := by
  rw [encryptMessage, if_neg (by omega)]
  rfl

section Lawful
variable {c} (hc : c.Lawful)
include hc

theorem length_header (s : CipherState) (msg : Bytes) : (header c s msg).length = 18 := by
  rw [header, length_encryptWithAd hc, BigEndian.length_toBytes]

theorem length_body (s : CipherState) (msg : Bytes) : (body c s msg).length = msg.length + 16 :=
  length_encryptWithAd hc _ _ _ _

theorem decryptLengthHeader_header {msg : Bytes} (hlen : msg.length ≤ lnMaxMsgLen)
    (nodeId : Option Pk) (s r : CipherState) :
    decryptLengthHeader c ⟨nodeId, .finished s r⟩ (header c r msg) =
      .ok (⟨nodeId, .finished s (r.opened c)⟩, msg.length) := by
  have hlen' : msg.length < 256 ^ 2 := by
    rw [lnMaxMsgLen] at hlen
    omega
  rw [decryptLengthHeader, if_neg (by simp [length_header hc])]
  simp only [header, decryptWithAd_encryptWithAd hc, bind, Except.bind,
    BigEndian.ofBytes_toBytes hlen']
  rfl

theorem decryptMessage_body {msg : Bytes} (hlen : msg.length ≤ lnMaxMsgLen)
    (nodeId : Option Pk) (s r : CipherState) :
    decryptMessage c ⟨nodeId, .finished s (r.opened c)⟩ (body c r msg) =
      .ok (⟨nodeId, .finished s (r.next c)⟩, msg) := by
  rw [decryptMessage, if_neg (by rw [length_body hc]; omega)]
  simp only [body, CipherState.opened, decryptWithAd_encryptWithAd hc, bind, Except.bind]
  rfl

end Lawful

end Noise
end HiddenLightning
