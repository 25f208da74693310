import HiddenLightning.OnionPayloads

/-! # Sending along a path

`build_onion_payloads` computes the payloads of a path from its end: an amount and an expiry grow
by the fee and the delta of each hop.  It tells the last hop from the others by nothing having been
added up yet, which is right unless the last hop adds nothing (`buildOnionPayloads_pays`).  The
packet that is then made of them goes through the nodes of the path, and each reads its own
(`send_delivers`). -/
namespace HiddenLightning
namespace Onion
open KeyStreams BigEndian

/-! ## The payloads of a path -/

/-- `RouteHop`, as far as its payload depends on it. -/
structure RouteHop (Pk : Type) where
  pubkey : Pk
  /-- `node_features.supports_variable_length_onion()`. -/
  variableLengthOnion : Bool
  shortChannelId : UInt64
  feeMsat : UInt64
  cltvExpiryDelta : UInt32

/-- Why no onion is sent: an error is returned, or something panics (a sum that overflows, a failed
assertion). -/
inductive SendError where
  | routeError (err : String)
  | panic
deriving DecidableEq

variable {Pk : Type} (totalMsat : UInt64) (paymentSecret : Option Bytes32)
  (keysendPreimage : Option Bytes32)

/-- The format of a hop's payload, with the hops after it. -/
def hopFormat (hop : RouteHop Pk) (after : List (RouteHop Pk)) : OnionHopDataFormat :=
  let lastShortChannelId := (after.head?.map (·.shortChannelId)).getD 0
  if hop.variableLengthOnion then
    if after.isEmpty then
      .finalNode (paymentSecret.map fun secret => ⟨secret, totalMsat⟩) keysendPreimage
    else .nonFinalNode lastShortChannelId
  else .legacy lastShortChannelId

/-- `build_onion_payloads`: the payloads, and the amount and expiry of the first hop.  The loop
goes from the last hop to the first. -/
def buildOnionPayloads (startingHtlcOffset : UInt32) :
    List (RouteHop Pk) → Except SendError (List OnionHopData × UInt64 × UInt32)
  | [] => .ok ([], 0, startingHtlcOffset)
  | hop :: after => do
    let (res, curValueMsat, curCltv) ← buildOnionPayloads startingHtlcOffset after
    let valueMsat := if curValueMsat = 0 then hop.feeMsat else curValueMsat
    let cltv := if curCltv = startingHtlcOffset then hop.cltvExpiryDelta + startingHtlcOffset
      else curCltv
    if curCltv = startingHtlcOffset ∧
        2 ^ 32 ≤ hop.cltvExpiryDelta.toNat + startingHtlcOffset.toNat then .error .panic
    else if 2 ^ 64 ≤ curValueMsat.toNat + hop.feeMsat.toNat then .error .panic
    else if maxValueMsat ≤ curValueMsat.toNat + hop.feeMsat.toNat then
      .error (.routeError "Channel fees overflowed?")
    else if 2 ^ 32 ≤ curCltv.toNat + hop.cltvExpiryDelta.toNat then .error .panic
    else if 500000000 ≤ curCltv.toNat + hop.cltvExpiryDelta.toNat then
      .error (.routeError "Channel CLTV overflowed?")
    else
      .ok (⟨hopFormat totalMsat paymentSecret keysendPreimage hop after, valueMsat, cltv⟩ :: res,
        curValueMsat + hop.feeMsat, curCltv + hop.cltvExpiryDelta)

/-- What the payloads of a path are for: a node that is offered an amount with an expiry hands it
on less its fee and its delta, on the next hop's channel, and the last node is offered what it is
to get. -/
inductive Pays (startingHtlcOffset : UInt32) :
    (amount : UInt64) → (cltv : UInt32) → List (RouteHop Pk) → List OnionHopData → Prop
  | last {hop : RouteHop Pk} {p : OnionHopData} (hamount : p.amtToForward = hop.feeMsat)
      (hcltv : p.outgoingCltvValue.toNat =
        startingHtlcOffset.toNat + hop.cltvExpiryDelta.toNat) :
      Pays startingHtlcOffset p.amtToForward p.outgoingCltvValue [hop] [p]
  | forward {amount : UInt64} {cltv : UInt32} {hop next : RouteHop Pk}
      {after : List (RouteHop Pk)} {p : OnionHopData} {ps : List OnionHopData}
      (hamount : p.amtToForward.toNat + hop.feeMsat.toNat = amount.toNat)
      (hcltv : p.outgoingCltvValue.toNat + hop.cltvExpiryDelta.toNat = cltv.toNat)
      (hchannel : p.format = .nonFinalNode next.shortChannelId ∨
        p.format = .legacy next.shortChannelId)
      (hafter : Pays startingHtlcOffset p.amtToForward p.outgoingCltvValue (next :: after) ps) :
      Pays startingHtlcOffset amount cltv (hop :: next :: after) (p :: ps)

/-- The last hop adds to a sum, or no hop does. -/
def LastCounts (f : RouteHop Pk → Nat) (path : List (RouteHop Pk)) : Prop :=
  (∀ hop ∈ path, f hop = 0) ∨ ∀ last ∈ path.getLast?, f last ≠ 0

variable {totalMsat paymentSecret keysendPreimage}

/-- One more hop at the front keeps that if it does not start a sum the last hop did not. -/
theorem lastCounts_cons (f : RouteHop Pk → Nat) (hop : RouteHop Pk) {after : List (RouteHop Pk)}
    (hafter : after ≠ []) : LastCounts f (hop :: after) ↔
      LastCounts f after ∧ ((∀ h ∈ after, f h = 0) → f hop = 0) := by
  have hlast : (hop :: after).getLast? = after.getLast? := by
    obtain ⟨next, after, rfl⟩ := List.exists_cons_of_ne_nil hafter
    simp
  unfold LastCounts
  rw [hlast]
  constructor
  · rintro (hzero | hcounts)
    · exact ⟨.inl fun h hh => hzero h (by simp [hh]), fun _ => hzero hop (by simp)⟩
    · refine ⟨.inr hcounts, fun hzero => ?_⟩
      have hmem := List.getLast_mem hafter
      exact absurd (hzero _ hmem) (hcounts _ (List.getLast?_eq_getLast_of_ne_nil hafter))
  · rintro ⟨hzero | hcounts, hhop⟩
    · left
      intro h hh
      rcases List.mem_cons.mp hh with rfl | hh
      · exact hhop hzero
      · exact hzero h hh
    · exact .inr hcounts

variable {startingHtlcOffset : UInt32} {path after : List (RouteHop Pk)} {hop : RouteHop Pk}
  {res : List OnionHopData} {value : UInt64} {cltv : UInt32}

/-- The payload of a hop, when those of the hops after it are there. -/
def hopPayload (totalMsat : UInt64) (paymentSecret keysendPreimage : Option Bytes32)
    (startingHtlcOffset : UInt32) (hop : RouteHop Pk) (after : List (RouteHop Pk)) (value : UInt64)
    (cltv : UInt32) : OnionHopData :=
  ⟨hopFormat totalMsat paymentSecret keysendPreimage hop after,
    if value = 0 then hop.feeMsat else value,
    if cltv = startingHtlcOffset then hop.cltvExpiryDelta + startingHtlcOffset else cltv⟩

theorem buildOnionPayloads_cons
    (h : buildOnionPayloads totalMsat paymentSecret keysendPreimage startingHtlcOffset
      (hop :: after) = .ok (res, value, cltv)) :
    ∃ res' value' cltv',
      buildOnionPayloads totalMsat paymentSecret keysendPreimage startingHtlcOffset after =
        .ok (res', value', cltv') ∧
      res = hopPayload totalMsat paymentSecret keysendPreimage startingHtlcOffset hop after value'
        cltv' :: res' ∧
      value.toNat = value'.toNat + hop.feeMsat.toNat ∧ value.toNat < maxValueMsat ∧
      cltv.toNat = cltv'.toNat + hop.cltvExpiryDelta.toNat := by
  rw [buildOnionPayloads] at h
  cases hrest : buildOnionPayloads totalMsat paymentSecret keysendPreimage startingHtlcOffset
      after with
  | error e => simp [hrest, bind, Except.bind] at h
  | ok built =>
    obtain ⟨res', value', cltv'⟩ := built
    simp only [hrest, bind, Except.bind] at h
    split at h
    · simp at h
    split at h
    · simp at h
    split at h
    · simp at h
    split at h
    · simp at h
    split at h
    · simp at h
    rename_i _ hvalue hmax hcltv _
    simp only [Except.ok.injEq, Prod.mk.injEq] at h
    obtain ⟨rfl, rfl, rfl⟩ := h
    refine ⟨res', value', cltv', rfl, rfl, ?_, ?_, ?_⟩
    · rw [UInt64.toNat_add, Nat.mod_eq_of_lt (by omega)]
    · rw [UInt64.toNat_add, Nat.mod_eq_of_lt (by omega)]
      omega
    · rw [UInt32.toNat_add, Nat.mod_eq_of_lt (by omega)]

/-- The sums that are built up are those of the hops. -/
theorem buildOnionPayloads_sums : ∀ {path : List (RouteHop Pk)} {res : List OnionHopData}
    {value : UInt64} {cltv : UInt32},
    buildOnionPayloads totalMsat paymentSecret keysendPreimage startingHtlcOffset path =
      .ok (res, value, cltv) →
    value.toNat = (path.map fun hop => hop.feeMsat.toNat).sum ∧
      cltv.toNat = startingHtlcOffset.toNat +
        (path.map fun hop => hop.cltvExpiryDelta.toNat).sum := by
  intro path
  induction path with
  | nil =>
    intro res value cltv h
    simp only [buildOnionPayloads, Except.ok.injEq, Prod.mk.injEq] at h
    obtain ⟨-, rfl, rfl⟩ := h
    simp
  | cons hop after ih =>
    intro res value cltv h
    obtain ⟨res', value', cltv', hbuild, -, hvalue, -, hcltv⟩ := buildOnionPayloads_cons h
    obtain ⟨hvalue', hcltv'⟩ := ih hbuild
    simp only [List.map_cons, List.sum_cons]
    omega

/-- Nothing has been added up yet if the hops so far add nothing. -/
theorem value_eq_zero_iff
    (h : buildOnionPayloads totalMsat paymentSecret keysendPreimage startingHtlcOffset after =
      .ok (res, value, cltv)) :
    (value = 0 ↔ ∀ hop ∈ after, hop.feeMsat.toNat = 0) ∧
      (cltv = startingHtlcOffset ↔ ∀ hop ∈ after, hop.cltvExpiryDelta.toNat = 0) := by
  obtain ⟨hvalue, hcltv⟩ := buildOnionPayloads_sums h
  constructor
  · rw [← UInt64.toNat_inj, hvalue, UInt64.toNat_zero, List.sum_eq_zero_iff_forall_eq_nat]
    simp
  · rw [← UInt32.toNat_inj, hcltv, Nat.add_eq_left, List.sum_eq_zero_iff_forall_eq_nat]
    simp

theorem hopFormat_cons (hop next : RouteHop Pk) (after : List (RouteHop Pk)) :
    hopFormat totalMsat paymentSecret keysendPreimage hop (next :: after) =
        .nonFinalNode next.shortChannelId ∨
      hopFormat totalMsat paymentSecret keysendPreimage hop (next :: after) =
        .legacy next.shortChannelId := by
  cases hv : hop.variableLengthOnion
  · right
    simp [hopFormat, hv]
  · left
    simp [hopFormat, hv]

/-- A hop's payload hands on what the hops after it add up to, unless they add up to nothing and
the hop does not. -/
theorem hopPayload_amounts (hop : RouteHop Pk)
    (h : buildOnionPayloads totalMsat paymentSecret keysendPreimage startingHtlcOffset after =
      .ok (res, value, cltv)) :
    ((hopPayload totalMsat paymentSecret keysendPreimage startingHtlcOffset hop after value
        cltv).amtToForward = value ↔
      ((∀ h ∈ after, h.feeMsat.toNat = 0) → hop.feeMsat.toNat = 0)) ∧
    ((hopPayload totalMsat paymentSecret keysendPreimage startingHtlcOffset hop after value
        cltv).outgoingCltvValue = cltv ↔
      ((∀ h ∈ after, h.cltvExpiryDelta.toNat = 0) → hop.cltvExpiryDelta.toNat = 0)) := by
  obtain ⟨hvalue, hcltv⟩ := value_eq_zero_iff h
  rw [← hvalue, ← hcltv]
  unfold hopPayload
  constructor
  · by_cases hzero : value = 0
    · simp [hzero, ← UInt64.toNat_inj]
    · simp [hzero]
  · by_cases hstart : cltv = startingHtlcOffset
    · have hdelta := hop.cltvExpiryDelta.toNat_lt
      have hoffset := startingHtlcOffset.toNat_lt
      rw [if_pos hstart, hstart, ← UInt32.toNat_inj, UInt32.toNat_add]
      simp only [true_imp_iff]
      omega
    · simp [hstart]

/-- The payloads of a path pay every node on it what it is to be paid, and give it the time it is
to have, if and only if the last hop adds to the amount and to the expiry, or no hop does. -/
theorem buildOnionPayloads_pays :
    ∀ {path : List (RouteHop Pk)} {res : List OnionHopData} {value : UInt64} {cltv : UInt32},
    path ≠ [] →
    buildOnionPayloads totalMsat paymentSecret keysendPreimage startingHtlcOffset path =
      .ok (res, value, cltv) →
    (Pays startingHtlcOffset value cltv path res ↔
      LastCounts (fun hop => hop.feeMsat.toNat) path ∧
        LastCounts (fun hop => hop.cltvExpiryDelta.toNat) path) := by
  intro path
  induction path with
  | nil => intro _ _ _ hne; exact absurd rfl hne
  | cons hop after ih =>
    intro res value cltv _ h
    obtain ⟨res', value', cltv', hbuild, rfl, hvalue, -, hcltv⟩ := buildOnionPayloads_cons h
    cases after with
    | nil =>
      simp only [buildOnionPayloads, Except.ok.injEq, Prod.mk.injEq] at hbuild
      obtain ⟨rfl, rfl, rfl⟩ := hbuild
      have hone : ∀ f : RouteHop Pk → Nat, LastCounts f [hop] := by
        intro f
        simp only [LastCounts, List.mem_singleton, forall_eq, List.getLast?_singleton,
          Option.mem_def, Option.some.injEq, forall_eq']
        exact eq_or_ne _ _
      refine iff_of_true ?_ ⟨hone _, hone _⟩
      have hamount : value = hop.feeMsat := by
        rw [← UInt64.toNat_inj, hvalue]
        simp
      have hexpiry : cltv = hop.cltvExpiryDelta + startingHtlcOffset := by
        rw [← UInt32.toNat_inj, hcltv, UInt32.toNat_add, Nat.add_comm, Nat.mod_eq_of_lt]
        rw [Nat.add_comm, ← hcltv]
        exact cltv.toNat_lt
      have hlast : Pays startingHtlcOffset _ _ [hop] [hopPayload totalMsat paymentSecret
          keysendPreimage startingHtlcOffset hop [] 0 startingHtlcOffset] :=
        .last (by simp [hopPayload]) (by simp [hopPayload, ← hexpiry, hcltv])
      simpa [hopPayload, hamount, hexpiry] using hlast
    | cons next after =>
      obtain ⟨hpaid, htimed⟩ := hopPayload_amounts hop hbuild
      have hne : next :: after ≠ [] := List.cons_ne_nil next after
      rw [lastCounts_cons _ hop hne, lastCounts_cons _ hop hne, ← hpaid, ← htimed]
      have hrest := ih (by simp) hbuild
      constructor
      · intro hpays
        obtain _ | ⟨hamount, hexpiry, -, hafter⟩ := hpays
        have hvalue' : (hopPayload totalMsat paymentSecret keysendPreimage startingHtlcOffset hop
            (next :: after) value' cltv').amtToForward = value' := by
          rw [← UInt64.toNat_inj]
          omega
        have hcltv' : (hopPayload totalMsat paymentSecret keysendPreimage startingHtlcOffset hop
            (next :: after) value' cltv').outgoingCltvValue = cltv' := by
          rw [← UInt32.toNat_inj]
          omega
        rw [hvalue', hcltv'] at hafter
        obtain ⟨hfees, hdeltas⟩ := hrest.mp hafter
        exact ⟨⟨hfees, hvalue'⟩, hdeltas, hcltv'⟩
      · rintro ⟨⟨hfees, hvalue'⟩, hdeltas, hcltv'⟩
        refine .forward ?_ ?_ (hopFormat_cons hop next after) ?_
        · rw [hvalue']
          exact hvalue.symm
        · rw [hcltv']
          exact hcltv.symm
        · rw [hvalue', hcltv']
          exact hrest.mpr ⟨hfees, hdeltas⟩

/-! ## Sending -/

variable {Sk : Type} {c : OnionCrypto Sk Pk}

/-- The onion part of `send_payment_along_path`: the packet, and the amount and expiry to offer it
to the first hop with. -/
def sendOnion (c : OnionCrypto Sk Pk) (path : List (RouteHop Pk)) (totalValue : UInt64)
    (paymentSecret keysendPreimage : Option Bytes32) (curHeight : UInt32) (paymentHash : Bytes)
    (sessionPriv : Sk) (prngSeed : Bytes) : Except SendError (OnionPacket Pk × UInt64 × UInt32) :=
  match constructOnionKeys c (path.map (·.pubkey)) sessionPriv with
  | none => .error (.routeError "Pubkey along hop was maliciously selected")
  | some onionKeys => do
    let (onionPayloads, htlcMsat, htlcCltv) ←
      buildOnionPayloads totalValue paymentSecret keysendPreimage curHeight path
    match routeSizeInsane OnionHopData.write onionPayloads with
    | none => .error .panic
    | some true => .error (.routeError "Route size too large considering onion data")
    | some false =>
      match constructOnionPacket c OnionHopData.write onionPayloads onionKeys prngSeed
          paymentHash with
      | none => .error .panic
      | some packet => .ok (packet, htlcMsat, htlcCltv)

theorem length_buildOnionPayloads : ∀ {path : List (RouteHop Pk)} {res : List OnionHopData}
    {value : UInt64} {cltv : UInt32},
    buildOnionPayloads totalMsat paymentSecret keysendPreimage startingHtlcOffset path =
      .ok (res, value, cltv) → res.length = path.length := by
  intro path
  induction path with
  | nil =>
    intro res value cltv h
    simp only [buildOnionPayloads, Except.ok.injEq, Prod.mk.injEq] at h
    simp [← h.1]
  | cons hop after ih =>
    intro res value cltv h
    obtain ⟨res', value', cltv', hbuild, rfl, -⟩ := buildOnionPayloads_cons h
    simp [ih hbuild]

/-- The payloads that are built can be read: the amounts in them were checked. -/
theorem buildOnionPayloads_payable
    (htotal : paymentSecret.isSome = true → totalMsat.toNat ≤ maxValueMsat) :
    ∀ {path : List (RouteHop Pk)} {res : List OnionHopData} {value : UInt64} {cltv : UInt32},
    buildOnionPayloads totalMsat paymentSecret keysendPreimage startingHtlcOffset path =
      .ok (res, value, cltv) → ∀ p ∈ res, p.Payable := by
  intro path
  induction path with
  | nil =>
    intro res value cltv h
    simp only [buildOnionPayloads, Except.ok.injEq, Prod.mk.injEq] at h
    simp [← h.1]
  | cons hop after ih =>
    intro res value cltv h p hp
    obtain ⟨res', value', cltv', hbuild, rfl, hvalue, hmax, -⟩ := buildOnionPayloads_cons h
    rcases List.mem_cons.mp hp with rfl | hp
    · constructor
      · rw [hopPayload]
        dsimp only
        split <;> omega
      · intro data preimage hformat
        simp only [hopPayload, hopFormat] at hformat
        split at hformat
        · split at hformat
          · simp only [OnionHopDataFormat.finalNode.injEq, Option.map_eq_some_iff] at hformat
            obtain ⟨⟨secret, hsecret, rfl⟩, -⟩ := hformat
            exact htotal (by simp [hsecret])
          · simp at hformat
        · simp at hformat
    · exact ih hbuild p hp

/-- A packet that is sent along a path is delivered: each node on the path, with its own key only,
finds the payload that was built for it, and the last one that it is the last.  (A code in the
packet that was all zeros would be taken for the end.) -/
theorem send_delivers (lawful : c.Lawful) {nodes : List Sk} {path : List (RouteHop Pk)}
    (hnodes : path.map (·.pubkey) = nodes.map c.fromSecretKey) (hne : path ≠ [])
    (htotal : paymentSecret.isSome = true → totalMsat.toNat ≤ maxValueMsat)
    {onionPayloads : List OnionHopData} {htlcMsat : UInt64} {curHeight htlcCltv : UInt32}
    (hbuild : buildOnionPayloads totalMsat paymentSecret keysendPreimage curHeight path =
      .ok (onionPayloads, htlcMsat, htlcCltv))
    (hsize : routeSizeInsane OnionHopData.write onionPayloads = some false) {sessionPriv : Sk}
    {keys : List (OnionKeys Pk)}
    (hkeys : constructOnionKeys c (path.map (·.pubkey)) sessionPriv = some keys)
    {prngSeed paymentHash : Bytes}
    (hcodes : ∀ code ∈ packetCodes c OnionHopData.write onionPayloads keys prngSeed paymentHash,
      code ≠ zeros 32) :
    ∃ packet, sendOnion c path totalMsat paymentSecret keysendPreimage curHeight paymentHash
        sessionPriv prngSeed = .ok (packet, htlcMsat, htlcCltv) ∧
      relay c readOnionHopData paymentHash nodes packet = deliveries onionPayloads := by
  have hlength := length_buildOnionPayloads hbuild
  have hnodesLength : path.length = nodes.length := by
    simpa using congrArg List.length hnodes
  have hpayloads : onionPayloads ≠ [] := by
    rw [← List.length_pos_iff, hlength]
    exact List.length_pos_iff.mpr hne
  obtain ⟨packet, hpacket, hrelay⟩ := relay_constructOnionPacket lawful nodes onionPayloads
    hpayloads (hlength.trans hnodesLength)
    (fun p hp => readOnionHopData_readsBack (buildOnionPayloads_payable htotal hbuild p hp)) hsize
    (by rw [← hnodes]; exact hkeys) hcodes
  refine ⟨packet, ?_, hrelay⟩
  simp [sendOnion, hkeys, hbuild, bind, Except.bind, hsize, hpacket]

/-! ## Two hops -/

/-- A group in which a key is its own public key, for small paths. -/
def toyCrypto : OnionCrypto Nat Nat where
  fromSecretKey a := a
  serialize a := toBytes 33 a
  sharedSecret a b := toBytes 32 (a * b)
  mulSecret a factor := some (a * (ofBytes factor + 1))
  mulPublic a factor := some (a * (ofBytes factor + 1))
  sha256 message := toBytes 32 (ofBytes message)
  hmac key message := 1 :: toBytes 31 (ofBytes key * 257 + ofBytes message)
  chacha key n := UInt8.ofNat (ofBytes key + n)

theorem toyCrypto_lawful : toyCrypto.Lawful where
  sharedSecret_comm a b := by simp [toyCrypto, Nat.mul_comm]
  mulPublic_fromSecretKey h := h
  length_hmac key message := by simp [toyCrypto]

theorem toyCrypto_packetCodes {HD : Type} {write : HD → Bytes} {payloads : List HD}
    {keys : List (OnionKeys Nat)} {prngSeed associatedData : Bytes} :
    ∀ code ∈ packetCodes toyCrypto write payloads keys prngSeed associatedData,
      code ≠ zeros 32 := by
  intro code hcode
  unfold packetCodes at hcode
  split at hcode
  · cases hcode
  · obtain ⟨key, message, rfl⟩ := exists_of_mem_layerCodes hcode
    simp [toyCrypto, zeros, List.replicate]

/-- Node 5 forwards for a fee of 100, and node 7 gets 1000. -/
def twoHops : List (RouteHop Nat) := [⟨5, true, 11, 100, 40⟩, ⟨7, true, 12, 1000, 18⟩]

theorem twoHops_payloads : buildOnionPayloads 1000 none none 700000 twoHops =
    .ok ([⟨.nonFinalNode 12, 1000, 700018⟩, ⟨.finalNode none none, 1000, 700018⟩], 1100, 700058) :=
  rfl

theorem send_delivers_two_hops :
    ∃ packet, sendOnion toyCrypto twoHops 1000 none none 700000 [] 3 [] =
        .ok (packet, 1100, 700058) ∧
      relay toyCrypto readOnionHopData [] [5, 7] packet =
        deliveries [⟨.nonFinalNode 12, 1000, 700018⟩, ⟨.finalNode none none, 1000, 700018⟩] :=
  send_delivers toyCrypto_lawful rfl (by decide) (by decide) twoHops_payloads (by decide) rfl
    toyCrypto_packetCodes

theorem buildOnionPayloads_pays_two_hops :
    Pays 700000 1100 700058 twoHops
        [⟨.nonFinalNode 12, 1000, 700018⟩, ⟨.finalNode none none, 1000, 700018⟩] ↔
      LastCounts (fun hop => hop.feeMsat.toNat) twoHops ∧
        LastCounts (fun hop => hop.cltvExpiryDelta.toNat) twoHops :=
  buildOnionPayloads_pays (by decide) twoHops_payloads

end Onion
end HiddenLightning
