import HiddenLightning.HexUtils
import HiddenLightning.IncidenceLists

/-! # The network graph

The node learns of the network by gossip: announcements of channels and nodes and updates of
channels, from its peers and from payments that failed (`routing/gossip.rs`).  A channel is kept
under its short id with its two nodes, and a node with the short ids of its channels.  Every
operation holds the locks it needs until it is done, so that a run is a sequence of operations.

`none` is a panic throughout: of the `unwrap`s and `expect`s, of `remove_channel_in_nodes` on a node
it does not find, and of the subtraction from a clock that has not reached two weeks yet. -/
namespace HiddenLightning
namespace Gossip
open HexUtils (hexStr)

/-! ## Messages -/

abbrev Bytes := List UInt8
abbrev NodeId := Bytes
abbrev Signature := Bytes

/-- What a node says of itself. -/
structure UnsignedNodeAnnouncement (K : Type) where
  features : Bytes
  timestamp : Nat
  nodeId : K
  rgb : Bytes
  nodeAlias : Bytes
  addresses : List Bytes
  excessAddressData : Bytes
  excessData : Bytes

/-- The same, signed by the node. -/
structure NodeAnnouncement (K : Type) where
  signature : Signature
  contents : UnsignedNodeAnnouncement K

/-- That two nodes have a channel. -/
structure UnsignedChannelAnnouncement (K : Type) where
  features : Bytes
  chainHash : Bytes
  shortChannelId : Nat
  nodeId1 : K
  nodeId2 : K
  bitcoinKey1 : K
  bitcoinKey2 : K
  excessData : Bytes

/-- The same, signed with the two node keys and the two funding keys. -/
structure ChannelAnnouncement (K : Type) where
  nodeSignature1 : Signature
  nodeSignature2 : Signature
  bitcoinSignature1 : Signature
  bitcoinSignature2 : Signature
  contents : UnsignedChannelAnnouncement K

/-- On what terms a channel forwards in one direction. -/
structure UnsignedChannelUpdate where
  chainHash : Bytes
  shortChannelId : Nat
  timestamp : Nat
  flags : Nat
  cltvExpiryDelta : Nat
  htlcMinimumMsat : Nat
  htlcMaximumMsat : Option Nat
  feeBaseMsat : Nat
  feeProportionalMillionths : Nat
  excessData : Bytes
deriving DecidableEq

/-- The same, signed by the node that the direction leads from. -/
structure ChannelUpdate where
  signature : Signature
  contents : UnsignedChannelUpdate
deriving DecidableEq

/-- The bit that tells the direction. -/
def UnsignedChannelUpdate.fromTwo (msg : UnsignedChannelUpdate) : Bool := msg.flags.testBit 0

/-- The second bit of the flags is set when the channel is disabled. -/
def UnsignedChannelUpdate.chanEnabled (msg : UnsignedChannelUpdate) : Bool := !msg.flags.testBit 1

/-! ## Errors -/

inductive ErrorAction where
  | ignoreError
  | ignoreAndLogGossip
  | ignoreAndLogDebug
  | ignoreDuplicateGossip
  /-- For no channel, and logged as a trace. -/
  | sendWarningMessage (data : String)
deriving DecidableEq

/-- Why a message was refused, and what is to be done about it. -/
structure LightningError where
  err : String
  action : ErrorAction
deriving DecidableEq

/-! ## The graph -/

/-- What a node asks for a payment it forwards: a base, and a share in millionths. -/
structure RoutingFees where
  baseMsat : Nat
  proportionalMillionths : Nat
deriving DecidableEq

/-- Each of the two fees apart. -/
def RoutingFees.min (a b : RoutingFees) : RoutingFees where
  baseMsat := Nat.min a.baseMsat b.baseMsat
  proportionalMillionths := Nat.min a.proportionalMillionths b.proportionalMillionths

/-- What is known of one direction of a channel. -/
structure ChannelUpdateInfo where
  lastUpdate : Nat
  enabled : Bool
  cltvExpiryDelta : Nat
  htlcMinimumMsat : Nat
  htlcMaximumMsat : Option Nat
  fees : RoutingFees
  lastUpdateMessage : Option ChannelUpdate
deriving DecidableEq

/-- What is known of a channel: its two nodes, its capacity and its directions. -/
structure ChannelInfo (K : Type) where
  features : Bytes
  nodeOne : NodeId
  oneToTwo : Option ChannelUpdateInfo
  nodeTwo : NodeId
  twoToOne : Option ChannelUpdateInfo
  capacitySats : Option Nat
  announcementMessage : Option (ChannelAnnouncement K)
  announcementReceivedTime : Nat

/-- What is kept of the last announcement of a node. -/
structure NodeAnnouncementInfo (K : Type) where
  features : Bytes
  lastUpdate : Nat
  rgb : Bytes
  nodeAlias : Bytes
  addresses : List Bytes
  announcementMessage : Option (NodeAnnouncement K)

/-- The channels of a node, the lowest fees towards it, and what it announced. -/
structure NodeInfo (K : Type) where
  channels : List Nat
  lowestInboundChannelFees : Option RoutingFees
  announcementInfo : Option (NodeAnnouncementInfo K)

/-- The channels by their short ids, and the nodes by their ids. -/
structure NetworkGraph (K : Type) where
  channels : Std.TreeMap Nat (ChannelInfo K)
  nodes : NodeId → Option (NodeInfo K)

/-- What is used of `secp256k1`, of the hashes of encoded messages and of scripts. -/
structure Secp (K : Type) where
  serialize : K → NodeId
  fromSlice : NodeId → Option K
  fromSlice_serialize : ∀ key, fromSlice (serialize key) = some key
  nodeHash : UnsignedNodeAnnouncement K → Bytes
  announcementHash : UnsignedChannelAnnouncement K → Bytes
  updateHash : UnsignedChannelUpdate → Bytes
  verify : Bytes → Signature → K → Bool
  fundingScript : K → K → Bytes

inductive AccessError where
  | unknownChain
  | unknownTx

/-- `chain::Access`: the value and the script of a channel's output. -/
abbrev ChainAccess := Bytes → Nat → Except AccessError (Nat × Bytes)

/-- Two weeks: what is older is pruned, or not taken. -/
def staleChannelUpdateAgeLimitSecs : Nat := 60 * 60 * 24 * 14

/-- A message with more bytes that are not understood is not kept for others. -/
def maxExcessBytesForRelay : Nat := 1024

/-- All the bitcoin there will be. -/
def maxValueMsat : Nat := 2100000000000000000

variable {K : Type}

def NetworkGraph.new : NetworkGraph K := ⟨∅, fun _ => none⟩

/-! ## Node announcements -/

/-- `secp_verify_sig!`. -/
def secpVerifySig (c : Secp K) (hash : Bytes) (sig : Signature) (key : K) (msgType : String) :
    Except LightningError Unit :=
  if c.verify hash sig key then .ok ()
  else
    let text := "Invalid signature on " ++ msgType ++ " message"
    .error ⟨text, .sendWarningMessage text⟩

/-- Whether a message is newer than what is known. -/
def checkLatest (lastUpdate : Option Nat) (timestamp : Nat) (same : String) :
    Except LightningError Unit :=
  match lastUpdate with
  | none => .ok ()
  | some last =>
    if timestamp < last then
      .error ⟨"Update older than last processed update", .ignoreAndLogGossip⟩
    else if last = timestamp then .error ⟨same, .ignoreDuplicateGossip⟩
    else .ok ()

/-- What is kept of a node announcement: all of it only if the part that is not understood is
small. -/
def newAnnouncementInfo (msg : UnsignedNodeAnnouncement K) (fullMsg : Option (NodeAnnouncement K)) :
    NodeAnnouncementInfo K :=
  let shouldRelay := msg.excessData.length ≤ maxExcessBytesForRelay ∧
    msg.excessAddressData.length ≤ maxExcessBytesForRelay ∧
    msg.excessData.length + msg.excessAddressData.length ≤ maxExcessBytesForRelay
  { features := msg.features
    lastUpdate := msg.timestamp
    rgb := msg.rgb
    nodeAlias := msg.nodeAlias
    addresses := msg.addresses
    announcementMessage := if shouldRelay then fullMsg else none }

namespace NetworkGraph

/-- An announcement whose signature has been checked: of a node that has a channel, and newer than
the last. -/
def updateNodeFromAnnouncementIntern (c : Secp K) (g : NetworkGraph K)
    (msg : UnsignedNodeAnnouncement K) (fullMsg : Option (NodeAnnouncement K)) :
    Except LightningError (NetworkGraph K) :=
  match g.nodes (c.serialize msg.nodeId) with
  | none => .error ⟨"No existing channels for node_announcement", .ignoreError⟩
  | some node => do
    checkLatest (node.announcementInfo.map (·.lastUpdate)) msg.timestamp
      "Update had the same timestamp as last processed update"
    return { g with
      nodes := Function.update g.nodes (c.serialize msg.nodeId)
        (some { node with announcementInfo := some (newAnnouncementInfo msg fullMsg) }) }

/-- An announcement as it comes from a peer. -/
def updateNodeFromAnnouncement (c : Secp K) (g : NetworkGraph K) (msg : NodeAnnouncement K) :
    Except LightningError (NetworkGraph K) := do
  secpVerifySig c (c.nodeHash msg.contents) msg.signature msg.contents.nodeId "node_announcement"
  g.updateNodeFromAnnouncementIntern c msg.contents (some msg)

end NetworkGraph

/-! ## Taking channels away -/

/-- A node without a channel, or no node if it was the last. -/
def NodeInfo.without (shortChannelId : Nat) (node : NodeInfo K) : Option (NodeInfo K) :=
  if node.channels.filter (· ≠ shortChannelId) = [] then none
  else some { node with channels := node.channels.filter (· ≠ shortChannelId) }

namespace NetworkGraph

/-- `remove_from_node!`. -/
def removeFromNode (nodes : NodeId → Option (NodeInfo K)) (nodeId : NodeId)
    (shortChannelId : Nat) : Option (NodeId → Option (NodeInfo K)) :=
  match nodes nodeId with
  | none => none
  | some node => some (Function.update nodes nodeId (node.without shortChannelId))

/-- The channel off the lists of both its nodes. -/
def removeChannelInNodes (nodes : NodeId → Option (NodeInfo K)) (chan : ChannelInfo K)
    (shortChannelId : Nat) : Option (NodeId → Option (NodeInfo K)) := do
  let nodes ← removeFromNode nodes chan.nodeOne shortChannelId
  removeFromNode nodes chan.nodeTwo shortChannelId

/-- A channel that is in the graph, taken out of it. -/
def removeChannel (g : NetworkGraph K) (shortChannelId : Nat) : Option (NetworkGraph K) := do
  let chan ← g.channels[shortChannelId]?
  let nodes ← removeChannelInNodes g.nodes chan shortChannelId
  return { channels := g.channels.erase shortChannelId, nodes }

end NetworkGraph

/-- The channel with both directions, as far as they are known, disabled. -/
def ChannelInfo.disable (chan : ChannelInfo K) : ChannelInfo K :=
  { chan with
    oneToTwo := chan.oneToTwo.map fun info => { info with enabled := false }
    twoToOne := chan.twoToOne.map fun info => { info with enabled := false } }

namespace NetworkGraph

/-- A payment failed at the channel, for good or for the time being. -/
def channelFailed (g : NetworkGraph K) (shortChannelId : Nat) (isPermanent : Bool) :
    Option (NetworkGraph K) :=
  match g.channels[shortChannelId]? with
  | none => some g
  | some chan =>
    if isPermanent then g.removeChannel shortChannelId
    else
      some { g with channels := g.channels.insert shortChannelId chan.disable }

end NetworkGraph

/-- The channel without the directions that were last updated before `minTime`. -/
def ChannelInfo.expire (minTime : Nat) (info : ChannelInfo K) : ChannelInfo K :=
  let fresh : ChannelUpdateInfo → Bool := fun update => minTime ≤ update.lastUpdate
  { info with oneToTwo := info.oneToTwo.filter fresh, twoToOne := info.twoToOne.filter fresh }

/-- Neither direction is known, and the announcement is old. -/
def ChannelInfo.isStale (minTime : Nat) (info : ChannelInfo K) : Bool :=
  info.oneToTwo.isNone && info.twoToOne.isNone && decide (info.announcementReceivedTime < minTime)

namespace NetworkGraph

def removeStaleChannelsWithTime (g : NetworkGraph K) (currentTimeUnix : Nat) :
    Option (NetworkGraph K) :=
  if 2 ^ 32 - 1 < currentTimeUnix then some g
  else if currentTimeUnix < staleChannelUpdateAgeLimitSecs then some g
  else
    let minTime := currentTimeUnix - staleChannelUpdateAgeLimitSecs
    let channels := g.channels.map fun _ info => info.expire minTime
    let scidsToRemove := (channels.toList.filter fun entry => entry.2.isStale minTime).map (·.1)
    scidsToRemove.foldlM removeChannel { g with channels }

end NetworkGraph

/-! ## Channel announcements -/

/-- A node, new if there was none, with a channel after the others. -/
def NodeInfo.withChannel (shortChannelId : Nat) : Option (NodeInfo K) → NodeInfo K
  | some node => { node with channels := node.channels ++ [shortChannelId] }
  | none =>
    { channels := [shortChannelId]
      lowestInboundChannelFees := none
      announcementInfo := none }

namespace NetworkGraph

def addToNode (nodes : NodeId → Option (NodeInfo K)) (nodeId : NodeId) (shortChannelId : Nat) :
    NodeId → Option (NodeInfo K) :=
  Function.update nodes nodeId (some (.withChannel shortChannelId (nodes nodeId)))

/-- The channel in the map and in the lists of its nodes. -/
def insertChannel (channels : Std.TreeMap Nat (ChannelInfo K))
    (nodes : NodeId → Option (NodeInfo K)) (shortChannelId : Nat) (info : ChannelInfo K) :
    NetworkGraph K where
  channels := channels.insert shortChannelId info
  nodes := addToNode (addToNode nodes info.nodeOne shortChannelId) info.nodeTwo shortChannelId

/-- A channel that is known is replaced only by one that was looked up in the chain. -/
def addChannelBetweenNodes (g : NetworkGraph K) (shortChannelId : Nat) (info : ChannelInfo K)
    (utxoValue : Option Nat) : Option (Except LightningError (NetworkGraph K)) :=
  match g.channels[shortChannelId]? with
  | some old =>
    if utxoValue.isSome then do
      let nodes ← removeChannelInNodes g.nodes old shortChannelId
      return .ok (insertChannel g.channels nodes shortChannelId info)
    else some (.error ⟨"Already have knowledge of channel", .ignoreDuplicateGossip⟩)
  | none => some (.ok (insertChannel g.channels g.nodes shortChannelId info))

end NetworkGraph

/-- The value of the channel's output, if there is a provider to ask. -/
def utxoValue (c : Secp K) (chainAccess : Option ChainAccess)
    (msg : UnsignedChannelAnnouncement K) : Except LightningError (Option Nat) :=
  match chainAccess with
  | none => .ok none
  | some getUtxo =>
    match getUtxo msg.chainHash msg.shortChannelId with
    | .ok (value, scriptPubkey) =>
      let expectedScript := c.fundingScript msg.bitcoinKey1 msg.bitcoinKey2
      if scriptPubkey = expectedScript then .ok (some value)
      else .error
        ⟨"Channel announcement key (" ++ String.ofList (hexStr scriptPubkey) ++
          ") didn't match on-chain script (" ++ String.ofList (hexStr expectedScript) ++ ")",
          .ignoreError⟩
    | .error .unknownChain => .error
      ⟨"Channel announced on an unknown chain (" ++ String.ofList (hexStr msg.chainHash) ++ ")",
        .ignoreError⟩
    | .error .unknownTx =>
      .error ⟨"Channel announced without corresponding UTXO entry", .ignoreError⟩

/-- A channel as it is announced, with nothing known of its directions. -/
def newChannelInfo (c : Secp K) (time : Nat) (msg : UnsignedChannelAnnouncement K)
    (fullMsg : Option (ChannelAnnouncement K)) (utxoValue : Option Nat) : ChannelInfo K where
  features := msg.features
  nodeOne := c.serialize msg.nodeId1
  oneToTwo := none
  nodeTwo := c.serialize msg.nodeId2
  twoToOne := none
  capacitySats := utxoValue
  announcementMessage :=
    if msg.excessData.length ≤ maxExcessBytesForRelay then fullMsg else none
  announcementReceivedTime := time

namespace NetworkGraph

/-- `time` is the clock of the system. -/
def updateChannelFromUnsignedAnnouncementIntern [DecidableEq K] (c : Secp K)
    (chainAccess : Option ChainAccess) (g : NetworkGraph K) (time : Nat)
    (msg : UnsignedChannelAnnouncement K) (fullMsg : Option (ChannelAnnouncement K)) :
    Option (Except LightningError (NetworkGraph K)) :=
  if msg.nodeId1 = msg.nodeId2 ∨ msg.bitcoinKey1 = msg.bitcoinKey2 then
    some (.error ⟨"Channel announcement node had a channel with itself", .ignoreError⟩)
  else
    match utxoValue c chainAccess msg with
    | .error err => some (.error err)
    | .ok utxoValue =>
      g.addChannelBetweenNodes msg.shortChannelId (newChannelInfo c time msg fullMsg utxoValue)
        utxoValue

end NetworkGraph

/-- The four signatures, in the order they are checked. -/
def verifyAnnouncement (c : Secp K) (msg : ChannelAnnouncement K) :
    Except LightningError Unit := do
  let hash := c.announcementHash msg.contents
  secpVerifySig c hash msg.nodeSignature1 msg.contents.nodeId1 "channel_announcement"
  secpVerifySig c hash msg.nodeSignature2 msg.contents.nodeId2 "channel_announcement"
  secpVerifySig c hash msg.bitcoinSignature1 msg.contents.bitcoinKey1 "channel_announcement"
  secpVerifySig c hash msg.bitcoinSignature2 msg.contents.bitcoinKey2 "channel_announcement"

/-- An announcement of a channel as it comes from a peer. -/
def NetworkGraph.updateChannelFromAnnouncement [DecidableEq K] (c : Secp K)
    (chainAccess : Option ChainAccess) (g : NetworkGraph K) (time : Nat)
    (msg : ChannelAnnouncement K) : Option (Except LightningError (NetworkGraph K)) :=
  match verifyAnnouncement c msg with
  | .error err => some (.error err)
  | .ok () =>
    g.updateChannelFromUnsignedAnnouncementIntern c chainAccess time msg.contents (some msg)

/-! ## Channel updates -/

namespace ChannelInfo

/-- What is known of the direction that an update is for. -/
def direction (chan : ChannelInfo K) (fromTwo : Bool) : Option ChannelUpdateInfo :=
  if fromTwo then chan.twoToOne else chan.oneToTwo

def setDirection (chan : ChannelInfo K) (fromTwo : Bool) (info : ChannelUpdateInfo) :
    ChannelInfo K :=
  if fromTwo then { chan with twoToOne := some info } else { chan with oneToTwo := some info }

def source (chan : ChannelInfo K) (fromTwo : Bool) : NodeId :=
  if fromTwo then chan.nodeTwo else chan.nodeOne

def dest (chan : ChannelInfo K) (fromTwo : Bool) : NodeId :=
  if fromTwo then chan.nodeOne else chan.nodeTwo

/-- The direction to `destNodeId`. -/
def inbound (chan : ChannelInfo K) (destNodeId : NodeId) : Option ChannelUpdateInfo :=
  if chan.nodeOne = destNodeId then chan.twoToOne else chan.oneToTwo

end ChannelInfo

/-- `htlc_maximum_msat` against the most there can be, and against the channel's capacity. -/
def checkMaximum (chan : ChannelInfo K) (msg : UnsignedChannelUpdate) :
    Except LightningError Unit :=
  match msg.htlcMaximumMsat with
  | none => .ok ()
  | some htlcMaximumMsat =>
    if maxValueMsat < htlcMaximumMsat then
      .error ⟨"htlc_maximum_msat is larger than maximum possible msats", .ignoreError⟩
    else
      match chan.capacitySats with
      | none => .ok ()
      | some capacitySats =>
        if maxValueMsat / 1000 < capacitySats ∨ capacitySats * 1000 < htlcMaximumMsat then
          .error ⟨"htlc_maximum_msat is larger than channel capacity or capacity is bogus",
            .ignoreError⟩
        else .ok ()

/-- `get_new_channel_info!`. -/
def getNewChannelInfo (msg : UnsignedChannelUpdate) (fullMsg : Option ChannelUpdate) :
    ChannelUpdateInfo where
  enabled := msg.chanEnabled
  lastUpdate := msg.timestamp
  cltvExpiryDelta := msg.cltvExpiryDelta
  htlcMinimumMsat := msg.htlcMinimumMsat
  htlcMaximumMsat := msg.htlcMaximumMsat
  fees := ⟨msg.feeBaseMsat, msg.feeProportionalMillionths⟩
  lastUpdateMessage := if msg.excessData.length ≤ maxExcessBytesForRelay then fullMsg else none

/-- The signature of the node that the direction starts from. -/
def verifyUpdate (c : Secp K) (chan : ChannelInfo K) (msg : UnsignedChannelUpdate)
    (sig : Signature) : Except LightningError Unit :=
  match c.fromSlice (chan.source msg.fromTwo) with
  | none =>
    .error ⟨if msg.fromTwo then "Couldn't parse source node pubkey"
      else "Couldn't parse destination node pubkey", .ignoreAndLogDebug⟩
  | some key => secpVerifySig c (c.updateHash msg) sig key "channel_update"

/-- All that is checked of an update against the channel it is for. -/
def checkUpdate (c : Secp K) (chan : ChannelInfo K) (msg : UnsignedChannelUpdate)
    (sig : Option Signature) : Except LightningError Unit := do
  checkMaximum chan msg
  checkLatest ((chan.direction msg.fromTwo).map (·.lastUpdate)) msg.timestamp
    "Update had same timestamp as last processed update"
  match sig with
  | none => .ok ()
  | some sig => verifyUpdate c chan msg sig

/-- The checks of an update against the clock. -/
def checkTimestamp (time : Nat) (msg : UnsignedChannelUpdate) : Except LightningError Unit :=
  if msg.timestamp < time - staleChannelUpdateAgeLimitSecs then
    .error ⟨"channel_update is older than two weeks old", .ignoreAndLogGossip⟩
  else if time + 60 * 60 * 24 < msg.timestamp then
    .error ⟨"channel_update has a timestamp more than a day in the future", .ignoreAndLogGossip⟩
  else .ok ()

/-- The lowest fees so far, with those of another channel if it is enabled towards the node. -/
def lowerFees (destNodeId : NodeId) (lowest : Option RoutingFees) (chan : ChannelInfo K) :
    Option RoutingFees :=
  match chan.inbound destNodeId with
  | none => lowest
  | some info =>
    if info.enabled then some ((lowest.getD ⟨2 ^ 32 - 1, 2 ^ 32 - 1⟩).min info.fees)
    else lowest

/-- The lowest fees of all the channels of a node. -/
def lowestInbound (channels : Std.TreeMap Nat (ChannelInfo K)) (destNodeId : NodeId)
    (chanIds : List Nat) : Option (Option RoutingFees) :=
  chanIds.foldlM
    (fun lowest chanId => channels[chanId]?.map fun chan => lowerFees destNodeId lowest chan) none

namespace NetworkGraph

/-- The fees of the node that a channel leads to, after an update of the channel. -/
def updateInboundFees (g : NetworkGraph K) (destNodeId : NodeId) (msg : UnsignedChannelUpdate)
    (chanWasEnabled : Bool) : Option (NetworkGraph K) :=
  if msg.chanEnabled then do
    let node ← g.nodes destNodeId
    let fees : RoutingFees := ⟨msg.feeBaseMsat, msg.feeProportionalMillionths⟩
    let lowest := (node.lowestInboundChannelFees.map fees.min).getD fees
    return { g with
      nodes := Function.update g.nodes destNodeId
        (some { node with lowestInboundChannelFees := some lowest }) }
  else if chanWasEnabled then do
    let node ← g.nodes destNodeId
    let lowest ← lowestInbound g.channels destNodeId node.channels
    return { g with
      nodes := Function.update g.nodes destNodeId
        (some { node with lowestInboundChannelFees := lowest }) }
  else some g

/-- An update that has passed the checks. -/
def applyUpdate (g : NetworkGraph K) (chan : ChannelInfo K) (msg : UnsignedChannelUpdate)
    (fullMsg : Option ChannelUpdate) : Option (NetworkGraph K) :=
  updateInboundFees
    { g with
      channels := g.channels.insert msg.shortChannelId
        (chan.setDirection msg.fromTwo (getNewChannelInfo msg fullMsg)) }
    (chan.dest msg.fromTwo) msg ((chan.direction msg.fromTwo).any (·.enabled))

/-- An update, with its signature if it came in a message of its own. -/
def updateChannelIntern (c : Secp K) (g : NetworkGraph K) (time : Nat)
    (msg : UnsignedChannelUpdate) (fullMsg : Option ChannelUpdate) (sig : Option Signature) :
    Option (Except LightningError (NetworkGraph K)) :=
  if time < staleChannelUpdateAgeLimitSecs then none
  else
    match checkTimestamp time msg with
    | .error err => some (.error err)
    | .ok () =>
      match g.channels[msg.shortChannelId]? with
      | none => some (.error ⟨"Couldn't find channel for update", .ignoreError⟩)
      | some chan =>
        match checkUpdate c chan msg sig with
        | .error err => some (.error err)
        | .ok () => (g.applyUpdate chan msg fullMsg).map .ok

/-- An update as it comes from a peer. -/
def updateChannel (c : Secp K) (g : NetworkGraph K) (time : Nat) (msg : ChannelUpdate) :
    Option (Except LightningError (NetworkGraph K)) :=
  g.updateChannelIntern c time msg.contents (some msg) (some msg.signature)

end NetworkGraph

/-! ## Runs -/

/-- What the graph is told, by the peers, by failed payments and by the timer.  `time` is the clock
when it is. -/
inductive GossipEvent (K : Type) where
  | nodeAnnouncement (msg : NodeAnnouncement K)
  | channelAnnouncement (time : Nat) (msg : ChannelAnnouncement K)
  | channelUpdate (time : Nat) (msg : ChannelUpdate)
  | channelFailure (shortChannelId : Nat) (isPermanent : Bool)
  /-- `node_failed` has nothing in it yet. -/
  | nodeFailure (nodeId : K) (isPermanent : Bool)
  | removeStaleChannels (time : Nat)

/-- The clock of the system has reached two weeks when an update comes. -/
def GossipEvent.ClockSet : GossipEvent K → Prop
  | .channelUpdate time _ => staleChannelUpdateAgeLimitSecs ≤ time
  | _ => True

namespace NetworkGraph
variable [DecidableEq K]

def handle (c : Secp K) (chainAccess : Option ChainAccess) (g : NetworkGraph K) :
    GossipEvent K → Option (Except LightningError (NetworkGraph K))
  | .nodeAnnouncement msg => some (g.updateNodeFromAnnouncement c msg)
  | .channelAnnouncement time msg => g.updateChannelFromAnnouncement c chainAccess time msg
  | .channelUpdate time msg => g.updateChannel c time msg
  | .channelFailure shortChannelId isPermanent =>
    (g.channelFailed shortChannelId isPermanent).map .ok
  | .nodeFailure _ _ => some (.ok g)
  | .removeStaleChannels time => (g.removeStaleChannelsWithTime time).map .ok

/-- After an error the graph is what it was. -/
def step (c : Secp K) (chainAccess : Option ChainAccess) (g : NetworkGraph K)
    (event : GossipEvent K) : Option (NetworkGraph K) :=
  (g.handle c chainAccess event).map fun result =>
    match result with
    | .ok g => g
    | .error _ => g

/-- A run of the graph. -/
def handleAll (c : Secp K) (chainAccess : Option ChainAccess) (g : NetworkGraph K)
    (events : List (GossipEvent K)) : Option (NetworkGraph K) :=
  events.foldlM (step c chainAccess) g

end NetworkGraph

end Gossip
end HiddenLightning
