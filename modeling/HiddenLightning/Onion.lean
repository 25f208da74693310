import Mathlib.Algebra.Ring.Nat
import HiddenLightning.KeyStreams

/-! # The onion

A payment is sent along a path in one packet of 1300 bytes.  `construct_onion_packet` wraps the
hops' payloads in it from the last to the first, each layer masked with a key stream and
authenticated with a key that only the sender and the hop can derive.  A hop takes off its layer
(`decode_next_hop`) and fills the packet up at the end, so that the packet stays as long as it was.

What it fills up with it derives from its own key; yet the next layer was authenticated by the
sender as it will be then.  The sender therefore computes beforehand what will have piled up at the
end of the packet when it reaches the last hop, the filler.  `wrap_tail` says that each layer ends
in what the hops before it will have put there, `decodeNextHop_wrap` that a hop finds its payload
and hands on the sender's next layer. -/
namespace HiddenLightning
namespace Onion
open KeyStreams

abbrev Bytes := List UInt8

/-! ## Keys -/

/-- The curve, the hash functions and the stream cipher the onion is made with. -/
structure OnionCrypto (Sk Pk : Type) where
  fromSecretKey : Sk → Pk
  serialize : Pk → Bytes
  /-- `SharedSecret::new`. -/
  sharedSecret : Pk → Sk → Bytes
  /-- `SecretKey::mul_assign`. -/
  mulSecret : Sk → Bytes → Option Sk
  /-- `PublicKey::mul_assign`. -/
  mulPublic : Pk → Bytes → Option Pk
  sha256 : Bytes → Bytes
  /-- `Hmac<Sha256>`: the key, then the message. -/
  hmac : Bytes → Bytes → Bytes
  /-- `ChaCha20` with the nonce 0: the key, then the position. -/
  chacha : Bytes → Nat → UInt8

/-- **What is assumed of them**: the two sides of a key exchange get the same secret, a public key
is blinded as its secret key is, and a code has 32 bytes. -/
structure OnionCrypto.Lawful {Sk Pk : Type} (c : OnionCrypto Sk Pk) : Prop where
  sharedSecret_comm : ∀ a b, c.sharedSecret (c.fromSecretKey a) b =
    c.sharedSecret (c.fromSecretKey b) a
  mulPublic_fromSecretKey : ∀ {a b factor}, c.mulSecret a factor = some b →
    c.mulPublic (c.fromSecretKey a) factor = some (c.fromSecretKey b)
  length_hmac : ∀ key message, (c.hmac key message).length = 32

/-- `OnionKeys`. -/
structure OnionKeys (Pk : Type) where
  ephemeralPubkey : Pk
  rho : Bytes
  mu : Bytes

variable {Sk Pk HD : Type} (c : OnionCrypto Sk Pk)

/-- The first key of `gen_rho_mu_from_shared_secret`. -/
def genRho (sharedSecret : Bytes) : Bytes := c.hmac [0x72, 0x68, 0x6f] sharedSecret

/-- The second. -/
def genMu (sharedSecret : Bytes) : Bytes := c.hmac [0x6d, 0x75] sharedSecret

/-- What the key of the packet is blinded with at a hop. -/
def blindingFactor (packetPubkey : Pk) (sharedSecret : Bytes) : Bytes :=
  c.sha256 (c.serialize packetPubkey ++ sharedSecret)

/-- `next_hop_packet_pubkey`. -/
def nextHopPacketPubkey (packetPubkey : Pk) (packetSharedSecret : Bytes) : Option Pk :=
  c.mulPublic packetPubkey (blindingFactor c packetPubkey packetSharedSecret)

/-- `construct_onion_keys_callback`: the shared secret with every hop of the path, and the public
key the packet has there. -/
def onionSecrets : List Pk → Sk → Option (List (Bytes × Pk))
  | [], _ => some []
  | hop :: path, blindedPriv => do
    let blindedPub := c.fromSecretKey blindedPriv
    let sharedSecret := c.sharedSecret hop blindedPriv
    let next ← c.mulSecret blindedPriv (blindingFactor c blindedPub sharedSecret)
    let rest ← onionSecrets path next
    return (sharedSecret, blindedPub) :: rest

/-- The keys of one hop, as `construct_onion_keys` makes them. -/
def onionKeys : Bytes × Pk → OnionKeys Pk
  | (sharedSecret, ephemeralPubkey) =>
    ⟨ephemeralPubkey, genRho c sharedSecret, genMu c sharedSecret⟩

/-- `construct_onion_keys`. -/
def constructOnionKeys (path : List Pk) (sessionPriv : Sk) : Option (List (OnionKeys Pk)) :=
  (onionSecrets c path sessionPriv).map fun secrets => secrets.map (onionKeys c)

/-! ## Packets -/

/-- `ONION_DATA_LEN`. -/
def onionDataLen : Nat := 20 * 65

/-- `OnionPacket`. -/
structure OnionPacket (Pk : Type) where
  version : UInt8
  publicKey : Option Pk
  hopData : Bytes
  hmac : Bytes

/-- What a hop's payload is in the packet: itself and the code of the next layer. -/
def hopLen (write : HD → Bytes) (payload : HD) : Nat := (write payload).length + 32

/-- The loop of `route_size_insane`.  `none` is the failed assertion. -/
def routeSizeLoop (write : HD → Bytes) : (len : Nat) → List HD → Option Bool
  | _, [] => some false
  | len, payload :: payloads =>
    if onionDataLen ≤ hopLen write payload then none
    else if onionDataLen < len + hopLen write payload then some true
    else routeSizeLoop write (len + hopLen write payload) payloads

/-- `route_size_insane`. -/
def routeSizeInsane (write : HD → Bytes) (payloads : List HD) : Option Bool :=
  routeSizeLoop write 0 payloads

/-- The loop that computes the filler, over all hops but the last. -/
def fillerLoop (write : HD → Bytes) : (pos : Nat) → Bytes → List (HD × OnionKeys Pk) →
    Option Bytes
  | _, res, [] => some res
  | pos, res, (payload, keys) :: hops =>
    let pos' := pos + hopLen write payload
    if hops.isEmpty then some res
    -- `assert!(pos <= ONION_DATA_LEN)`
    else if onionDataLen < pos' then none
    else
      let resized := res ++ zeros (pos' - res.length)
      -- the stream has been wound forward by what is left of the packet
      fillerLoop write pos' (mask (c.chacha keys.rho) (onionDataLen - pos) resized) hops

/-- One round of the loop that wraps the payloads: what is there is moved back, and the payload and
the code of the layer below come before it. -/
def wrapHop (write : HD → Bytes) (payload : HD) (keys : OnionKeys Pk) (packetData hmacRes : Bytes) :
    Bytes :=
  mask (c.chacha keys.rho) 0 ((write payload ++ hmacRes ++ packetData).take onionDataLen)

/-- The loop that wraps the payloads, from the last hop to the first, with the packet and the code
it ends with.  `none` is a payload that does not fit in the packet. -/
def wrapLoop (write : HD → Bytes) (noise filler associatedData : Bytes) :
    List (HD × OnionKeys Pk) → Option (Bytes × Bytes)
  | [] => some (noise, zeros 32)
  | (payload, keys) :: hops => do
    let (packetData, hmacRes) ← wrapLoop write noise filler associatedData hops
    if onionDataLen < hopLen write payload then none
    else
      let wrapped := wrapHop c write payload keys packetData hmacRes
      let wrapped := if hops.isEmpty then wrapped.take (onionDataLen - filler.length) ++ filler
        else wrapped
      return (wrapped, c.hmac keys.mu (wrapped ++ associatedData))

/-- The codes of the layers, from the outermost on. -/
def layerCodes (write : HD → Bytes) (noise filler associatedData : Bytes) :
    List (HD × OnionKeys Pk) → List Bytes
  | [] => []
  | hop :: hops =>
    ((wrapLoop c write noise filler associatedData (hop :: hops)).map Prod.snd).toList ++
      layerCodes write noise filler associatedData hops

/-- `construct_onion_packet_with_init_noise`. -/
def constructOnionPacketWithInitNoise (write : HD → Bytes) (payloads : List HD)
    (keys : List (OnionKeys Pk)) (noise associatedData : Bytes) : Option (OnionPacket Pk) := do
  let first ← keys.head?
  let filler ← fillerLoop c write 0 [] (payloads.zip keys)
  let (packetData, hmacRes) ← wrapLoop c write noise filler associatedData (payloads.zip keys)
  return ⟨0, some first.ephemeralPubkey, packetData, hmacRes⟩

/-- `construct_onion_packet`: the packet starts out as a key stream. -/
def constructOnionPacket (write : HD → Bytes) (payloads : List HD) (keys : List (OnionKeys Pk))
    (prngSeed associatedData : Bytes) : Option (OnionPacket Pk) :=
  constructOnionPacketWithInitNoise c write payloads keys
    (mask (c.chacha prngSeed) 0 (zeros onionDataLen)) associatedData

/-- The codes that are written in the packet: every layer holds the one of the layer below. -/
def packetCodes (write : HD → Bytes) (payloads : List HD) (keys : List (OnionKeys Pk))
    (prngSeed associatedData : Bytes) : List Bytes :=
  match fillerLoop c write 0 [] (payloads.zip keys) with
  | none => []
  | some filler => layerCodes c write (mask (c.chacha prngSeed) 0 (zeros onionDataLen)) filler
      associatedData (payloads.zip keys).tail

/-! ## At a hop -/

/-- `DecodeError`, as far as `decode_next_hop` tells the cases apart. -/
inductive DecodeError where
  | unknownVersion
  | unknownRequiredFeature
  | invalidValue
  | shortRead
  | other
deriving DecidableEq

/-- `OnionDecodeErr`. -/
inductive OnionDecodeErr where
  | malformed (errMsg : String) (errCode : UInt16)
  | relay (errMsg : String) (errCode : UInt16)
deriving DecidableEq

/-- `Hop`. -/
inductive Hop (HD : Type) where
  | receive (nextHopData : HD)
  | forward (nextHopData : HD) (nextHopHmac newPacketBytes : Bytes)

/-- The code a hop fails with when it cannot read its payload. -/
def DecodeError.errorCode : DecodeError → UInt16
  | .unknownVersion => 0x4000 ||| 1
  | .unknownRequiredFeature | .invalidValue | .shortRead => 0x4000 ||| 22
  | .other => 0x2000 ||| 2

/-- `decode_next_hop`.  A payload is read off the front of the unmasked packet. -/
def decodeNextHop (read : Bytes → Except DecodeError (HD × Bytes)) (sharedSecret hopData hmacBytes
    paymentHash : Bytes) : Except OnionDecodeErr (Hop HD) :=
  if c.hmac (genMu c sharedSecret) (hopData ++ paymentHash) ≠ hmacBytes then
    .error (.malformed "HMAC Check failed" (0x8000 ||| 0x4000 ||| 5))
  else
    let stream := c.chacha (genRho c sharedSecret)
    match read (mask stream 0 hopData) with
    | .error err => .error (.relay "Unable to decode our hop data" err.errorCode)
    | .ok (msg, rest) =>
      if rest.length < 32 then
        .error (.relay "Unable to decode our hop data" (0x4000 ||| 22))
      else if rest.take 32 = zeros 32 then .ok (.receive msg)
      else
        let newPacketBytes := rest.drop 32
        -- the stream goes on after the last byte of the packet
        .ok (.forward msg (rest.take 32) (newPacketBytes ++
          mask stream hopData.length (zeros (onionDataLen - newPacketBytes.length))))

/-- What a node makes of an onion packet. -/
inductive Decoded (HD Pk : Type) where
  | received (payload : HD)
  | forwarded (payload : HD) (outgoing : OnionPacket Pk)

/-- `decode_update_add_htlc_onion`, up to the packet to hand on: what comes after that in it is
about the channels and amounts. -/
def decodeUpdateAddHtlcOnion (read : Bytes → Except DecodeError (HD × Bytes)) (ourNetworkKey : Sk)
    (packet : OnionPacket Pk) (paymentHash : Bytes) : Except OnionDecodeErr (Decoded HD Pk) :=
  match packet.publicKey with
  | none => .error (.malformed "invalid ephemeral pubkey" (0x8000 ||| 0x4000 ||| 6))
  | some publicKey =>
    let sharedSecret := c.sharedSecret publicKey ourNetworkKey
    if packet.version ≠ 0 then
      .error (.malformed "Unknown onion packet version" (0x8000 ||| 0x4000 ||| 4))
    else
      match decodeNextHop c read sharedSecret packet.hopData packet.hmac paymentHash with
      | .error e => .error e
      | .ok (.receive msg) => .ok (.received msg)
      | .ok (.forward msg nextHopHmac newPacketBytes) =>
        .ok (.forwarded msg
          ⟨0, nextHopPacketPubkey c publicKey sharedSecret, newPacketBytes, nextHopHmac⟩)

/-- A packet on its way: every node decodes it and hands on what it is to hand on.  Listed is what
the nodes make of it, until one fails or receives it. -/
def relay (read : Bytes → Except DecodeError (HD × Bytes)) (paymentHash : Bytes) :
    List Sk → OnionPacket Pk → List (Except OnionDecodeErr (HD × Bool))
  | [], _ => []
  | node :: nodes, packet =>
    match decodeUpdateAddHtlcOnion c read node packet paymentHash with
    | .error e => [.error e]
    | .ok (.received payload) => [.ok (payload, true)]
    | .ok (.forwarded payload outgoing) =>
      .ok (payload, false) :: relay read paymentHash nodes outgoing

/-! ## What piles up at the end -/

section
variable {c} {write : HD → Bytes}

/-- What the hops take up of the packet. -/
def pathLen (write : HD → Bytes) (hops : List (HD × OnionKeys Pk)) : Nat :=
  (hops.map fun hop => hopLen write hop.1).sum

@[simp] theorem pathLen_cons (hop : HD × OnionKeys Pk) (hops : List (HD × OnionKeys Pk)) :
    pathLen write (hop :: hops) = hopLen write hop.1 + pathLen write hops := by
  simp [pathLen]

/-- What a hop puts at the end of the packet, behind what those before it have put there. -/
def pileUp (c : OnionCrypto Sk Pk) (keys : OnionKeys Pk) (pos len : Nat) (res : Bytes) : Bytes :=
  mask (c.chacha keys.rho) (onionDataLen - pos) (res ++ zeros len)

theorem fillerLoop_cons {payload : HD} {keys : OnionKeys Pk} {hops : List (HD × OnionKeys Pk)}
    (hhops : hops ≠ []) {pos : Nat} {res : Bytes} (hres : res.length = pos)
    (hfit : pos + hopLen write payload ≤ onionDataLen) :
    fillerLoop c write pos res ((payload, keys) :: hops) =
      fillerLoop c write (pos + hopLen write payload)
        (pileUp c keys pos (hopLen write payload) res) hops := by
  have hempty : hops.isEmpty = false := by simpa using hhops
  rw [fillerLoop, hempty, if_neg (by decide), if_neg (by omega), hres, Nat.add_sub_cancel_left]
  rfl

/-- The bytes a hop puts there are its own stream, after the packet. -/
theorem drop_pileUp {keys : OnionKeys Pk} {pos len : Nat} {res : Bytes} (hres : res.length = pos)
    (hpos : pos ≤ onionDataLen) :
    (pileUp c keys pos len res).drop pos = mask (c.chacha keys.rho) onionDataLen (zeros len) := by
  rw [pileUp, drop_mask, List.drop_left' hres, Nat.sub_add_cancel hpos]

/-- Under them is what was there, masked. -/
theorem take_pileUp {keys : OnionKeys Pk} {pos len : Nat} {res : Bytes} (hres : res.length = pos) :
    (pileUp c keys pos len res).take pos =
      mask (c.chacha keys.rho) (onionDataLen - pos) res := by
  rw [pileUp, take_mask, List.take_left' hres]

/-- A layer: the payload and the code of the packet below, and so much of that packet as there is
room for. -/
theorem wrapHop_eq {payload : HD} (keys : OnionKeys Pk) (packetData : Bytes) {hmacRes : Bytes}
    (hhmac : hmacRes.length = 32) (hfit : hopLen write payload ≤ onionDataLen) :
    wrapHop c write payload keys packetData hmacRes = mask (c.chacha keys.rho) 0
      (write payload ++ hmacRes ++ packetData.take (onionDataLen - hopLen write payload)) := by
  have hlen : (write payload ++ hmacRes).length = hopLen write payload := by simp [hopLen, hhmac]
  rw [wrapHop, List.take_append, hlen, List.take_of_length_le (by omega)]

theorem length_wrapHop {payload : HD} (keys : OnionKeys Pk) {packetData hmacRes : Bytes}
    (hpacket : packetData.length = onionDataLen) :
    (wrapHop c write payload keys packetData hmacRes).length = onionDataLen := by
  simp only [wrapHop, length_mask, List.length_take, List.length_append, hpacket]
  omega

theorem wrapLoop_cons {payload : HD} {keys : OnionKeys Pk} {hops : List (HD × OnionKeys Pk)}
    {noise filler associatedData below code : Bytes} (hhops : hops ≠ [])
    (hwrap : wrapLoop c write noise filler associatedData hops = some (below, code))
    (hfit : hopLen write payload ≤ onionDataLen) :
    wrapLoop c write noise filler associatedData ((payload, keys) :: hops) =
      some (wrapHop c write payload keys below code,
        c.hmac keys.mu (wrapHop c write payload keys below code ++ associatedData)) := by
  have hempty : hops.isEmpty = false := by simpa using hhops
  simp [wrapLoop, hwrap, hempty, Nat.not_lt.mpr hfit]

theorem layerCodes_eq {noise filler associatedData below code : Bytes}
    {hops : List (HD × OnionKeys Pk)} (hhops : hops ≠ [])
    (hwrap : wrapLoop c write noise filler associatedData hops = some (below, code)) :
    layerCodes c write noise filler associatedData hops =
      code :: layerCodes c write noise filler associatedData hops.tail := by
  obtain ⟨hop, hops, rfl⟩ := List.exists_cons_of_ne_nil hhops
  rw [layerCodes, hwrap]
  rfl

/-- The code of a layer is a code of something. -/
theorem exists_of_mem_layerCodes {noise filler associatedData code : Bytes}
    {hops : List (HD × OnionKeys Pk)}
    (h : code ∈ layerCodes c write noise filler associatedData hops) :
    ∃ key message, code = c.hmac key message := by
  induction hops with
  | nil => cases h
  | cons hop hops ih =>
    obtain ⟨payload, keys⟩ := hop
    rcases List.mem_append.mp h with hfirst | hrest
    · simp only [wrapLoop, Option.bind_eq_bind, Option.mem_toList, Option.map_eq_some_iff,
        Option.bind_eq_some_iff] at hfirst
      obtain ⟨_, ⟨_, -, hwrap⟩, rfl⟩ := hfirst
      split at hwrap
      · cases hwrap
      · obtain rfl := Option.some.inj hwrap
        exact ⟨_, _, rfl⟩
    · exact ih hrest

/-- The layer of the last hop, with the filler at its end. -/
def lastLayer (c : OnionCrypto Sk Pk) (write : HD → Bytes) (payload : HD) (keys : OnionKeys Pk)
    (noise filler : Bytes) : Bytes :=
  (wrapHop c write payload keys noise (zeros 32)).take (onionDataLen - filler.length) ++ filler

theorem wrapLoop_last {payload : HD} {keys : OnionKeys Pk} (noise filler associatedData : Bytes)
    (hfit : hopLen write payload ≤ onionDataLen) :
    wrapLoop c write noise filler associatedData [(payload, keys)] =
      some (lastLayer c write payload keys noise filler,
        c.hmac keys.mu (lastLayer c write payload keys noise filler ++ associatedData)) := by
  simp [wrapLoop, lastLayer, Nat.not_lt.mpr hfit]

/-- A layer over one that ends in what this hop and those before it put there ends in what those
before it put there. -/
theorem drop_wrapHop {payload : HD} {keys : OnionKeys Pk} {below code res : Bytes} {pos : Nat}
    (hcode : code.length = 32) (hres : res.length = pos)
    (hfit : pos + hopLen write payload ≤ onionDataLen)
    (htail : below.drop (onionDataLen - (pos + hopLen write payload)) =
      pileUp c keys pos (hopLen write payload) res) :
    (wrapHop c write payload keys below code).drop (onionDataLen - pos) = res := by
  have hlen : (write payload ++ code).length = hopLen write payload := by simp [hopLen, hcode]
  have hback : onionDataLen - pos =
      hopLen write payload + (onionDataLen - (pos + hopLen write payload)) := by omega
  have hroom : onionDataLen - hopLen write payload -
      (onionDataLen - (pos + hopLen write payload)) = pos := by omega
  calc (wrapHop c write payload keys below code).drop (onionDataLen - pos)
      = mask (c.chacha keys.rho) (onionDataLen - pos)
          ((below.take (onionDataLen - hopLen write payload)).drop
            (onionDataLen - (pos + hopLen write payload))) := by
        rw [wrapHop_eq keys below hcode (by omega), drop_mask, Nat.zero_add, hback,
          List.drop_append, hlen, List.drop_of_length_le (by omega), List.nil_append,
          Nat.add_sub_cancel_left]
    _ = mask (c.chacha keys.rho) (onionDataLen - pos)
          ((pileUp c keys pos (hopLen write payload) res).take pos) := by
        rw [List.drop_take, htail, hroom]
    _ = res := by rw [take_pileUp hres, mask_mask]

/-- Every layer ends in what the hops before it will have put there. -/
theorem wrap_tail (lawful : c.Lawful) {noise filler : Bytes}
    (hnoise : noise.length = onionDataLen) (associatedData : Bytes) :
    ∀ (hops : List (HD × OnionKeys Pk)) (pos : Nat) (res : Bytes), hops ≠ [] → res.length = pos →
      pos + pathLen write hops ≤ onionDataLen → fillerLoop c write pos res hops = some filler →
      ∃ packetData hmacRes,
        wrapLoop c write noise filler associatedData hops = some (packetData, hmacRes) ∧
        packetData.length = onionDataLen ∧ hmacRes.length = 32 ∧
        packetData.drop (onionDataLen - pos) = res := by
  intro hops
  induction hops with
  | nil => intro _ _ hne; exact absurd rfl hne
  | cons hop hops ih =>
    obtain ⟨payload, keys⟩ := hop
    intro pos res _ hres hfit hfiller
    rw [pathLen_cons] at hfit
    dsimp only at hfit
    by_cases hhops : hops = []
    · subst hhops
      obtain rfl : res = filler := by simpa [fillerLoop] using hfiller
      refine ⟨_, _, wrapLoop_last noise res associatedData (by omega), ?_,
        lawful.length_hmac _ _, ?_⟩
      · rw [lastLayer, List.length_append, List.length_take, length_wrapHop keys hnoise]
        omega
      · rw [lastLayer, List.drop_left']
        rw [List.length_take, length_wrapHop keys hnoise]
        omega
    · rw [fillerLoop_cons hhops hres (by omega)] at hfiller
      have hpile : (pileUp c keys pos (hopLen write payload) res).length =
          pos + hopLen write payload := by simp [pileUp, hres]
      obtain ⟨below, code, hwrap, hbelow, hcode, htail⟩ := ih _ _ hhops hpile (by omega) hfiller
      exact ⟨_, _, wrapLoop_cons hhops hwrap (by omega), length_wrapHop keys hbelow,
        lawful.length_hmac _ _, drop_wrapHop hcode hres (by omega) htail⟩

/-! ## Taking a layer off -/

variable {read : Bytes → Except DecodeError (HD × Bytes)} {payload : HD}

/-- A hop that is not the last finds its payload, and puts together again the layer below its
own. -/
theorem decodeNextHop_wrapHop (sharedSecret : Bytes) (pubkey : Pk) (paymentHash : Bytes)
    (hread : ∀ rest, read (write payload ++ rest) = .ok (payload, rest))
    {below code res : Bytes} {pos : Nat}
    (hbelow : below.length = onionDataLen) (hcode : code.length = 32) (hzeros : code ≠ zeros 32)
    (hres : res.length = pos) (hfit : pos + hopLen write payload ≤ onionDataLen)
    (htail : below.drop (onionDataLen - (pos + hopLen write payload)) =
      pileUp c (onionKeys c (sharedSecret, pubkey)) pos (hopLen write payload) res) :
    decodeNextHop c read sharedSecret
        (wrapHop c write payload (onionKeys c (sharedSecret, pubkey)) below code)
        (c.hmac (onionKeys c (sharedSecret, pubkey)).mu
          (wrapHop c write payload (onionKeys c (sharedSecret, pubkey)) below code ++ paymentHash))
        paymentHash = .ok (.forward payload code below) := by
  have hplain : mask (c.chacha (genRho c sharedSecret)) 0
      (wrapHop c write payload (onionKeys c (sharedSecret, pubkey)) below code) =
      write payload ++ (code ++ below.take (onionDataLen - hopLen write payload)) := by
    rw [wrapHop_eq _ below hcode (by omega), ← List.append_assoc]
    exact mask_mask _ 0 _
  -- what the hop puts at the end is the end of the layer below
  have hend : below.drop (onionDataLen - hopLen write payload) =
      mask (c.chacha (genRho c sharedSecret)) onionDataLen (zeros (hopLen write payload)) := by
    have hdrop := congrArg (List.drop pos) htail
    rw [drop_pileUp hres (by omega), List.drop_drop] at hdrop
    rw [show onionDataLen - hopLen write payload =
      onionDataLen - (pos + hopLen write payload) + pos by omega]
    exact hdrop
  rw [decodeNextHop, if_neg (by simp [onionKeys])]
  dsimp only
  rw [hplain, hread]
  dsimp only
  rw [if_neg (by simp [hcode]), List.take_left' hcode, if_neg hzeros, List.drop_left' hcode,
    length_wrapHop _ hbelow, List.length_take, hbelow,
    show onionDataLen - min (onionDataLen - hopLen write payload) onionDataLen =
      hopLen write payload by omega, ← hend, List.take_append_drop]

/-- The last hop finds its payload, and that it is the last. -/
theorem decodeNextHop_lastLayer (sharedSecret : Bytes) (pubkey : Pk) (paymentHash : Bytes)
    (hread : ∀ rest, read (write payload ++ rest) = .ok (payload, rest)) (noise : Bytes)
    {filler : Bytes} (hfit : filler.length + hopLen write payload ≤ onionDataLen) :
    decodeNextHop c read sharedSecret
        (lastLayer c write payload (onionKeys c (sharedSecret, pubkey)) noise filler)
        (c.hmac (onionKeys c (sharedSecret, pubkey)).mu
          (lastLayer c write payload (onionKeys c (sharedSecret, pubkey)) noise filler ++ paymentHash))
        paymentHash = .ok (.receive payload) := by
  -- the filler is behind the payload and the code
  obtain ⟨rest, hplain⟩ : ∃ rest, mask (c.chacha (genRho c sharedSecret)) 0
      (lastLayer c write payload (onionKeys c (sharedSecret, pubkey)) noise filler) =
      write payload ++ (zeros 32 ++ rest) := by
    have hlen : (write payload ++ zeros 32).length = hopLen write payload := by simp [hopLen]
    rw [lastLayer, wrapHop_eq _ noise (length_zeros 32) (by omega), take_mask, mask_append,
      List.take_append, hlen, List.take_of_length_le (by omega),
      show (onionKeys c (sharedSecret, pubkey)).rho = genRho c sharedSecret from rfl, mask_mask,
      List.append_assoc, List.append_assoc]
    exact ⟨_, rfl⟩
  rw [decodeNextHop, if_neg (by simp [onionKeys])]
  dsimp only
  rw [hplain, hread]
  dsimp only
  rw [if_neg (by simp), List.take_left' (length_zeros 32), if_pos rfl]

/-! ## Along the path -/

/-- What the nodes of a path are to make of a packet: each finds its payload, the last one that the
payment is for itself. -/
def deliveries : List HD → List (Except OnionDecodeErr (HD × Bool))
  | [] => []
  | payload :: payloads => .ok (payload, payloads.isEmpty) :: deliveries payloads

/-- The keys of a path whose nodes have the secret keys `nodes`, from the first hop on. -/
theorem onionSecrets_cons {node : Sk} {nodes : List Sk} {priv : Sk} {secrets : List (Bytes × Pk)}
    (h : onionSecrets c ((node :: nodes).map c.fromSecretKey) priv = some secrets) :
    ∃ next rest, c.mulSecret priv (blindingFactor c (c.fromSecretKey priv)
        (c.sharedSecret (c.fromSecretKey node) priv)) = some next ∧
      onionSecrets c (nodes.map c.fromSecretKey) next = some rest ∧
      secrets = (c.sharedSecret (c.fromSecretKey node) priv, c.fromSecretKey priv) :: rest := by
  simp only [List.map_cons, onionSecrets, Option.bind_eq_bind, Option.bind_eq_some_iff,
    Option.pure_def, Option.some.injEq] at h
  obtain ⟨next, hnext, rest, hrest, rfl⟩ := h
  exact ⟨next, rest, hnext, hrest, rfl⟩

theorem length_onionSecrets {path : List Pk} {priv : Sk} {secrets : List (Bytes × Pk)}
    (h : onionSecrets c path priv = some secrets) : secrets.length = path.length := by
  induction path generalizing priv secrets with
  | nil =>
    obtain rfl : [] = secrets := by simpa [onionSecrets] using h
    rfl
  | cons hop path ih =>
    simp only [onionSecrets, Option.bind_eq_bind, Option.bind_eq_some_iff, Option.pure_def,
      Option.some.injEq] at h
    obtain ⟨next, -, rest, hrest, rfl⟩ := h
    simp [ih hrest]

/-- A layer goes through the hops it is for, wherever on the path it starts. -/
theorem relay_wrap (lawful : c.Lawful) {filler paymentHash : Bytes} (noise : Bytes)
    (hnoise : noise.length = onionDataLen) :
    ∀ (nodes : List Sk) (payloads : List HD) (priv : Sk) (secrets : List (Bytes × Pk)) (pos : Nat)
      (res : Bytes), payloads ≠ [] → payloads.length = nodes.length →
      (∀ p ∈ payloads, ∀ rest, read (write p ++ rest) = .ok (p, rest)) →
      onionSecrets c (nodes.map c.fromSecretKey) priv = some secrets → res.length = pos →
      pos + pathLen write (payloads.zip (secrets.map (onionKeys c))) ≤ onionDataLen →
      fillerLoop c write pos res (payloads.zip (secrets.map (onionKeys c))) = some filler →
      (∀ code ∈ layerCodes c write noise filler paymentHash
        (payloads.zip (secrets.map (onionKeys c))).tail, code ≠ zeros 32) →
      ∃ packetData hmacRes, wrapLoop c write noise filler paymentHash
          (payloads.zip (secrets.map (onionKeys c))) = some (packetData, hmacRes) ∧
        relay c read paymentHash nodes ⟨0, some (c.fromSecretKey priv), packetData, hmacRes⟩ =
          deliveries payloads := by
  intro nodes
  induction nodes with
  | nil =>
    intro payloads _ _ _ _ hne hlen
    exact absurd (List.eq_nil_of_length_eq_zero (by simpa using hlen)) hne
  | cons node nodes ih =>
    intro payloads priv secrets pos res hne hlen hread hsecrets hres hfit hfiller hcodes
    obtain ⟨payload, payloads, rfl⟩ := List.exists_cons_of_ne_nil hne
    obtain ⟨next, rest, hnext, hrest, rfl⟩ := onionSecrets_cons hsecrets
    have hsecret := lawful.sharedSecret_comm priv node
    have hread₁ := hread payload (by simp)
    simp only [List.map_cons, List.zip_cons_cons, pathLen_cons] at hfit hfiller ⊢
    rw [List.map_cons, List.zip_cons_cons, List.tail_cons] at hcodes
    by_cases hpayloads : payloads = []
    · subst hpayloads
      obtain rfl : res = filler := by simpa [fillerLoop] using hfiller
      refine ⟨_, _, wrapLoop_last noise res paymentHash (by omega), ?_⟩
      have hdecode := decodeNextHop_lastLayer (c := c)
        (c.sharedSecret (c.fromSecretKey node) priv) (c.fromSecretKey priv) paymentHash hread₁ noise
        (show res.length + hopLen write payload ≤ onionDataLen by omega)
      simp [relay, decodeUpdateAddHtlcOnion, hsecret, hdecode, deliveries]
    · have hzip : payloads.zip (rest.map (onionKeys c)) ≠ [] := by
        have hrestlen : rest.length = payloads.length := by
          have hnodes := length_onionSecrets hrest
          simp only [List.length_map, List.length_cons] at hnodes hlen
          omega
        rw [← List.length_pos_iff, List.length_zip, List.length_map, hrestlen, Nat.min_self]
        exact List.length_pos_iff.mpr hpayloads
      rw [fillerLoop_cons hzip hres (by omega)] at hfiller
      have hpile : ∀ keys : OnionKeys Pk, (pileUp c keys pos (hopLen write payload) res).length =
          pos + hopLen write payload := by simp [pileUp, hres]
      obtain ⟨below, code, hwrap, hbelow, hcode, htail⟩ := wrap_tail lawful hnoise paymentHash _ _
        _ hzip (hpile _) (by omega) hfiller
      rw [layerCodes_eq hzip hwrap] at hcodes
      have hzeros : code ≠ zeros 32 := hcodes code List.mem_cons_self
      obtain ⟨_, _, hwrap', hrelay⟩ := ih payloads next rest _ _ hpayloads
        (by simpa using hlen) (fun p hp => hread p (by simp [hp])) hrest (hpile _) (by omega) hfiller
        fun code hmem => hcodes code (List.mem_cons_of_mem _ hmem)
      obtain ⟨rfl, rfl⟩ := Prod.mk.inj (Option.some.inj (hwrap.symm.trans hwrap'))
      refine ⟨_, _, wrapLoop_cons hzip hwrap (by omega), ?_⟩
      have hdecode := decodeNextHop_wrapHop (c.sharedSecret (c.fromSecretKey node) priv)
        (c.fromSecretKey priv) paymentHash hread₁ hbelow hcode hzeros hres (by omega) htail
      have hpubkey : nextHopPacketPubkey c (c.fromSecretKey priv)
          (c.sharedSecret (c.fromSecretKey node) priv) = some (c.fromSecretKey next) :=
        lawful.mulPublic_fromSecretKey hnext
      have hempty : payloads.isEmpty = false := by simpa using hpayloads
      simp [relay, decodeUpdateAddHtlcOnion, hsecret, hdecode, hpubkey, hrelay, deliveries, hempty]

/-- `route_size_insane` has found that the hops fit. -/
theorem pathLen_of_routeSize : ∀ (payloads : List HD) (keys : List (OnionKeys Pk)) (len : Nat),
    routeSizeLoop write len payloads = some false → payloads = [] ∨
      len + pathLen write (payloads.zip keys) ≤ onionDataLen := by
  intro payloads
  induction payloads with
  | nil => intro _ _ _; exact .inl rfl
  | cons payload payloads ih =>
    intro keys len h
    right
    rw [routeSizeLoop] at h
    split at h
    · simp at h
    · split at h
      · simp at h
      · rename_i hfit
        cases keys with
        | nil => simp only [List.zip_nil_right, pathLen, List.map_nil, List.sum_nil]; omega
        | cons key keys =>
          simp only [List.zip_cons_cons, pathLen_cons]
          rcases ih keys _ h with rfl | hrest
          · simp only [List.zip_nil_left, pathLen, List.map_nil, List.sum_nil]
            omega
          · omega

/-- The filler is computed if the hops fit. -/
theorem fillerLoop_isSome : ∀ (hops : List (HD × OnionKeys Pk)) (pos : Nat) (res : Bytes),
    pos + pathLen write hops ≤ onionDataLen →
      ∃ filler, fillerLoop c write pos res hops = some filler := by
  intro hops
  induction hops with
  | nil => intro _ res _; exact ⟨res, rfl⟩
  | cons hop hops ih =>
    intro pos res hfit
    rw [pathLen_cons] at hfit
    rw [fillerLoop]
    by_cases hhops : hops.isEmpty = true
    · exact ⟨res, if_pos hhops⟩
    · rw [if_neg hhops, if_neg (by omega)]
      exact ih _ _ (by omega)

/-- A packet that was made for a path goes all the way: every node on it finds its payload, and
hands on a packet the next one can open with its own key. -/
theorem relay_constructOnionPacket (lawful : c.Lawful) (nodes : List Sk) (payloads : List HD)
    (hne : payloads ≠ []) (hlen : payloads.length = nodes.length)
    (hread : ∀ p ∈ payloads, ∀ rest, read (write p ++ rest) = .ok (p, rest))
    (hsize : routeSizeInsane write payloads = some false) {sessionPriv : Sk}
    {keys : List (OnionKeys Pk)}
    (hkeys : constructOnionKeys c (nodes.map c.fromSecretKey) sessionPriv = some keys)
    {prngSeed paymentHash : Bytes}
    (hcodes : ∀ code ∈ packetCodes c write payloads keys prngSeed paymentHash, code ≠ zeros 32) :
    ∃ packet, constructOnionPacket c write payloads keys prngSeed paymentHash = some packet ∧
      relay c read paymentHash nodes packet = deliveries payloads := by
  obtain ⟨secrets, hsecrets, rfl⟩ := Option.map_eq_some_iff.mp hkeys
  have hfit := (pathLen_of_routeSize payloads (secrets.map (onionKeys c)) 0 hsize).resolve_left hne
  obtain ⟨filler, hfiller⟩ := fillerLoop_isSome (c := c) (payloads.zip (secrets.map (onionKeys c)))
    0 [] hfit
  simp only [packetCodes, hfiller] at hcodes
  obtain ⟨packetData, hmacRes, hwrap, hrelay⟩ := relay_wrap lawful
    (mask (c.chacha prngSeed) 0 (zeros onionDataLen)) (by simp) nodes payloads sessionPriv
    secrets 0 [] hne hlen hread hsecrets rfl hfit hfiller hcodes
  obtain ⟨node, nodes, rfl⟩ := List.exists_cons_of_ne_nil
    (List.ne_nil_of_length_pos (hlen ▸ List.length_pos_iff.mpr hne))
  obtain ⟨next, rest, -, -, rfl⟩ := onionSecrets_cons hsecrets
  refine ⟨_, ?_, hrelay⟩
  simp only [constructOnionPacket, constructOnionPacketWithInitNoise, List.map_cons,
    List.head?_cons]
  rw [List.map_cons] at hfiller hwrap
  simp only [hfiller, hwrap, Option.bind_eq_bind, Option.bind_some, Option.pure_def]
  rfl

end

end Onion
end HiddenLightning
