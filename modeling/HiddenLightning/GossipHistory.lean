import HiddenLightning.GossipLinks

/-! # Where the graph comes from

Everything in the graph was signed by those whom it is about: a channel by its two nodes, a
direction of it by the node that it starts from, and all that is known of a node by that node
(`graph_signed`).  What is kept of a message is determined by it, but that a direction may have been
disabled since, and that the value of a channel's output comes from the chain. -/
namespace HiddenLightning
namespace Gossip
variable {K : Type}

/-! ## Signatures -/

/-- A channel without its directions. -/
def ChannelInfo.blank (chan : ChannelInfo K) : ChannelInfo K :=
  { chan with oneToTwo := none, twoToOne := none }

/-- The announcement that a channel comes from, and the time it was received.  It does not tell the
value of the channel's output. -/
structure AnnouncedBy (c : Secp K) (scid : Nat) (chan : ChannelInfo K) (time : Nat)
    (msg : ChannelAnnouncement K) : Prop where
  scid_eq : msg.contents.shortChannelId = scid
  info_eq : chan.blank = newChannelInfo c time msg.contents (some msg) chan.capacitySats
  signedByOne :
    c.verify (c.announcementHash msg.contents) msg.nodeSignature1 msg.contents.nodeId1 = true
  signedByTwo :
    c.verify (c.announcementHash msg.contents) msg.nodeSignature2 msg.contents.nodeId2 = true

/-- The update that a direction of a channel comes from.  It may have been disabled since. -/
structure UpdatedBy (c : Secp K) (scid : Nat) (chan : ChannelInfo K) (fromTwo : Bool)
    (info : ChannelUpdateInfo) (msg : ChannelUpdate) : Prop where
  scid_eq : msg.contents.shortChannelId = scid
  fromTwo_eq : msg.contents.fromTwo = fromTwo
  info_eq : info = { getNewChannelInfo msg.contents (some msg) with enabled := info.enabled }
  enabled : info.enabled = true → msg.contents.chanEnabled = true
  signed : ∃ key, chan.source fromTwo = c.serialize key ∧
    c.verify (c.updateHash msg.contents) msg.signature key = true

/-- The announcement that is known of a node. -/
structure NodeAnnouncedBy (c : Secp K) (nodeId : NodeId) (info : NodeAnnouncementInfo K)
    (msg : NodeAnnouncement K) : Prop where
  nodeId_eq : nodeId = c.serialize msg.contents.nodeId
  info_eq : info = newAnnouncementInfo msg.contents (some msg)
  signed : c.verify (c.nodeHash msg.contents) msg.signature msg.contents.nodeId = true

/-- A channel that comes, as a whole, from messages among `events`. -/
structure ChannelSigned (c : Secp K) (events : List (GossipEvent K)) (scid : Nat)
    (chan : ChannelInfo K) : Prop where
  announced : ∃ time msg, .channelAnnouncement time msg ∈ events ∧ AnnouncedBy c scid chan time msg
  updated : ∀ fromTwo info, chan.direction fromTwo = some info →
    ∃ time msg, .channelUpdate time msg ∈ events ∧ UpdatedBy c scid chan fromTwo info msg

/-- A node of which all that is known comes from a message among `events`. -/
def NodeSigned (c : Secp K) (events : List (GossipEvent K)) (nodeId : NodeId)
    (node : NodeInfo K) : Prop :=
  ∀ info, node.announcementInfo = some info →
    ∃ msg, .nodeAnnouncement msg ∈ events ∧ NodeAnnouncedBy c nodeId info msg

variable {c : Secp K} {events : List (GossipEvent K)} {scid : Nat} {chan : ChannelInfo K}

/-- The nodes of a channel are those that announced it. -/
theorem AnnouncedBy.nodes_eq {time : Nat} {msg : ChannelAnnouncement K}
    (h : AnnouncedBy c scid chan time msg) :
    chan.nodeOne = c.serialize msg.contents.nodeId1 ∧
      chan.nodeTwo = c.serialize msg.contents.nodeId2 :=
  ⟨congrArg ChannelInfo.nodeOne h.info_eq, congrArg ChannelInfo.nodeTwo h.info_eq⟩

/-- What is known of the directions has nothing to do with the announcement. -/
theorem AnnouncedBy.of_blank {chan' : ChannelInfo K} {time : Nat} {msg : ChannelAnnouncement K}
    (h : AnnouncedBy c scid chan time msg) (hblank : chan'.blank = chan.blank) :
    AnnouncedBy c scid chan' time msg := by
  have hcapacity : chan'.capacitySats = chan.capacitySats :=
    (congrArg ChannelInfo.capacitySats hblank :)
  refine ⟨h.scid_eq, ?_, h.signedByOne, h.signedByTwo⟩
  rw [hblank, hcapacity]
  exact h.info_eq

/-- The same channel, of whose directions less is known. -/
theorem ChannelSigned.mono {chan' : ChannelInfo K} (h : ChannelSigned c events scid chan)
    (hblank : chan'.blank = chan.blank)
    (hdirection : ∀ fromTwo info', chan'.direction fromTwo = some info' →
      ∃ info, chan.direction fromTwo = some info ∧
        info' = { info with enabled := info'.enabled } ∧
        (info'.enabled = true → info.enabled = true)) :
    ChannelSigned c events scid chan' where
  announced := by
    obtain ⟨time, msg, hmem, ha⟩ := h.announced
    exact ⟨time, msg, hmem, ha.of_blank hblank⟩
  updated fromTwo info' hinfo' := by
    obtain ⟨info, hinfo, heq, henabled⟩ := hdirection fromTwo info' hinfo'
    obtain ⟨time, msg, hmem, hu⟩ := h.updated fromTwo info hinfo
    have hone : chan'.nodeOne = chan.nodeOne := (congrArg ChannelInfo.nodeOne hblank :)
    have htwo : chan'.nodeTwo = chan.nodeTwo := (congrArg ChannelInfo.nodeTwo hblank :)
    have hsource : chan'.source fromTwo = chan.source fromTwo := by
      rw [ChannelInfo.source, ChannelInfo.source, hone, htwo]
    refine ⟨time, msg, hmem, hu.scid_eq, hu.fromTwo_eq, ?_, fun h => hu.enabled (henabled h),
      hsource ▸ hu.signed⟩
    rw [heq, hu.info_eq]

theorem ChannelSigned.disable (h : ChannelSigned c events scid chan) :
    ChannelSigned c events scid chan.disable := by
  apply h.mono
  · rfl
  · intro fromTwo info' hinfo'
    have hmap : (chan.direction fromTwo).map (fun info => { info with enabled := false }) =
        some info' := by
      cases fromTwo with
      | false => exact hinfo'
      | true => exact hinfo'
    obtain ⟨info, hinfo, rfl⟩ := Option.map_eq_some_iff.mp hmap
    exact ⟨info, hinfo, rfl, fun h => by simp at h⟩

theorem ChannelSigned.expire (h : ChannelSigned c events scid chan) (minTime : Nat) :
    ChannelSigned c events scid (chan.expire minTime) := by
  apply h.mono
  · rfl
  · intro fromTwo info' hinfo'
    have hfilter : (chan.direction fromTwo).filter (fun info => minTime ≤ info.lastUpdate) =
        some info' := by
      cases fromTwo with
      | false => exact hinfo'
      | true => exact hinfo'
    exact ⟨info', (Option.filter_eq_some_iff.mp hfilter).1, rfl, fun h => h⟩

theorem blank_setDirection (chan : ChannelInfo K) (fromTwo : Bool) (info : ChannelUpdateInfo) :
    (chan.setDirection fromTwo info).blank = chan.blank := by
  cases fromTwo with
  | false => rfl
  | true => rfl

/-- One direction is set, and the other left. -/
theorem direction_setDirection (chan : ChannelInfo K) (fromTwo fromTwo' : Bool)
    (info : ChannelUpdateInfo) :
    (chan.setDirection fromTwo info).direction fromTwo' =
      if fromTwo' = fromTwo then some info else chan.direction fromTwo' := by
  cases fromTwo with
  | false => cases fromTwo' <;> rfl
  | true => cases fromTwo' <;> rfl

theorem source_setDirection (chan : ChannelInfo K) (fromTwo fromTwo' : Bool)
    (info : ChannelUpdateInfo) :
    (chan.setDirection fromTwo info).source fromTwo' = chan.source fromTwo' := by
  cases fromTwo with
  | false => rfl
  | true => rfl

/-- An update is taken only if it is later than what is known. -/
theorem checkLatest_ok_iff {lastUpdate : Option Nat} {timestamp : Nat} {same : String} :
    checkLatest lastUpdate timestamp same = .ok () ↔ ∀ last ∈ lastUpdate, last < timestamp := by
  unfold checkLatest
  split
  · simp
  case h_2 last =>
    simp only [Option.mem_def, Option.some.injEq, forall_eq']
    split
    · simp
      omega
    · split
      · simp
        omega
      · simp
        omega

/-- The checks of an update by the channel it is for. -/
theorem checkUpdate_ok_iff {msg : UnsignedChannelUpdate} {sig : Signature} :
    checkUpdate c chan msg (some sig) = .ok () ↔
      checkMaximum chan msg = .ok () ∧
      (∀ info ∈ chan.direction msg.fromTwo, info.lastUpdate < msg.timestamp) ∧
      verifyUpdate c chan msg sig = .ok () := by
  have hlatest := @checkLatest_ok_iff ((chan.direction msg.fromTwo).map (·.lastUpdate))
    msg.timestamp "Update had same timestamp as last processed update"
  simp only [Option.mem_map, forall_exists_index, and_imp, forall_apply_eq_imp_iff₂] at hlatest
  rw [← hlatest]
  unfold checkUpdate
  cases checkMaximum chan msg with
  | error err => simp [bind, Except.bind]
  | ok u =>
    cases checkLatest ((chan.direction msg.fromTwo).map (·.lastUpdate)) msg.timestamp
        "Update had same timestamp as last processed update" with
    | error err => simp [bind, Except.bind]
    | ok u => simp [bind, Except.bind]

/-- An update that has passed the checks was signed by the node its direction starts from. -/
theorem ChannelSigned.update {time : Nat} {msg : ChannelUpdate}
    (h : ChannelSigned c events msg.contents.shortChannelId chan)
    (hmem : .channelUpdate time msg ∈ events)
    (hcheck : checkUpdate c chan msg.contents (some msg.signature) = .ok ()) :
    ChannelSigned c events msg.contents.shortChannelId
      (chan.setDirection msg.contents.fromTwo (getNewChannelInfo msg.contents (some msg))) := by
  obtain ⟨time', ann, hann, ha⟩ := h.announced
  refine ⟨⟨time', ann, hann, ha.of_blank (blank_setDirection _ _ _)⟩, ?_⟩
  intro fromTwo info hinfo
  rw [direction_setDirection] at hinfo
  split at hinfo
  case isTrue hdir =>
    obtain rfl := Option.some.inj hinfo
    subst hdir
    refine ⟨time, msg, hmem, rfl, rfl, rfl, fun h => h, ?_⟩
    rw [source_setDirection]
    -- The key that the signature is checked with is the one that was announced.
    obtain ⟨key, hkey⟩ : ∃ key, chan.source msg.contents.fromTwo = c.serialize key := by
      cases msg.contents.fromTwo with
      | false => exact ⟨_, ha.nodes_eq.1⟩
      | true => exact ⟨_, ha.nodes_eq.2⟩
    refine ⟨key, hkey, ?_⟩
    have hverify := (checkUpdate_ok_iff.mp hcheck).2.2
    unfold verifyUpdate at hverify
    rw [hkey, c.fromSlice_serialize] at hverify
    exact NetworkGraph.secpVerifySig_ok hverify
  case isFalse =>
    obtain ⟨time'', msg', hmem', hu⟩ := h.updated fromTwo info hinfo
    exact ⟨time'', msg', hmem', hu.scid_eq, hu.fromTwo_eq, hu.info_eq, hu.enabled,
      (source_setDirection chan _ _ _).symm ▸ hu.signed⟩

/-- An announcement that is verified has the signatures of both its nodes. -/
theorem verifyAnnouncement_ok {msg : ChannelAnnouncement K}
    (h : verifyAnnouncement c msg = .ok ()) :
    c.verify (c.announcementHash msg.contents) msg.nodeSignature1 msg.contents.nodeId1 = true ∧
      c.verify (c.announcementHash msg.contents) msg.nodeSignature2 msg.contents.nodeId2 =
        true := by
  unfold verifyAnnouncement at h
  cases hone : secpVerifySig c (c.announcementHash msg.contents) msg.nodeSignature1
      msg.contents.nodeId1 "channel_announcement" with
  | error err => simp [hone, bind, Except.bind] at h
  | ok u =>
    cases htwo : secpVerifySig c (c.announcementHash msg.contents) msg.nodeSignature2
        msg.contents.nodeId2 "channel_announcement" with
    | error err => simp [hone, htwo, bind, Except.bind] at h
    | ok u => exact ⟨NetworkGraph.secpVerifySig_ok hone, NetworkGraph.secpVerifySig_ok htwo⟩

/-- A channel that has just been announced. -/
theorem channelSigned_new {time : Nat} {msg : ChannelAnnouncement K} {utxoValue : Option Nat}
    (hmem : .channelAnnouncement time msg ∈ events)
    (hverify : verifyAnnouncement c msg = .ok ()) :
    ChannelSigned c events msg.contents.shortChannelId
      (newChannelInfo c time msg.contents (some msg) utxoValue) where
  announced := by
    obtain ⟨hsig1, hsig2⟩ := verifyAnnouncement_ok hverify
    exact ⟨time, msg, hmem, rfl, rfl, hsig1, hsig2⟩
  updated fromTwo info hinfo := by
    cases fromTwo with
    | false => cases hinfo
    | true => cases hinfo

namespace NetworkGraph

/-- All of the graph comes from messages among `events`. -/
structure Signed (c : Secp K) (events : List (GossipEvent K)) (g : NetworkGraph K) : Prop where
  channel : ∀ (scid : Nat) (chan : ChannelInfo K), g.channels[scid]? = some chan →
    ChannelSigned c events scid chan
  node : ∀ nodeId node, g.nodes nodeId = some node → NodeSigned c events nodeId node

variable {g g' : NetworkGraph K} {shortChannelId : Nat}

/-- One channel put into the others, or in the place of the one before. -/
theorem channel_insert {channels : Std.TreeMap Nat (ChannelInfo K)}
    (h : ∀ (scid : Nat) (chan : ChannelInfo K), channels[scid]? = some chan →
      ChannelSigned c events scid chan) (hchan : ChannelSigned c events shortChannelId chan)
    {scid : Nat} {chan' : ChannelInfo K}
    (hchan' : (channels.insert shortChannelId chan)[scid]? = some chan') :
    ChannelSigned c events scid chan' := by
  rw [Std.TreeMap.getElem?_insert] at hchan'
  split at hchan'
  case isTrue hscid =>
    obtain rfl : shortChannelId = scid := by simpa using hscid
    obtain rfl := Option.some.inj hchan'
    exact hchan
  case isFalse => exact h scid chan' hchan'

/-- One node changed, and announced as before. -/
theorem node_update {nodes : NodeId → Option (NodeInfo K)} {nodeId : NodeId} {node : NodeInfo K}
    (h : ∀ nodeId node, nodes nodeId = some node → NodeSigned c events nodeId node)
    (hnode : NodeSigned c events nodeId node) {other : NodeId} {found : NodeInfo K}
    (hfound : Function.update nodes nodeId (some node) other = some found) :
    NodeSigned c events other found := by
  by_cases heq : other = nodeId
  · subst heq
    rw [Function.update_self] at hfound
    obtain rfl := Option.some.inj hfound
    exact hnode
  · rw [Function.update_of_ne heq] at hfound
    exact h other found hfound

/-- A channel that goes takes nothing with it but itself and its nodes. -/
theorem Signed.removed (h : Signed c events g) (hr : Removed g g' shortChannelId chan) :
    Signed c events g' where
  channel scid chan' hchan' := by
    rw [hr.channels_eq, Std.TreeMap.getElem?_erase] at hchan'
    split at hchan'
    · simp at hchan'
    · exact h.channel scid chan' hchan'
  node nodeId node hnode := by
    rw [hr.nodes_eq] at hnode
    split at hnode
    case isTrue =>
      obtain ⟨old, hold, hwithout⟩ := Option.bind_eq_some_iff.mp hnode
      unfold NodeInfo.without at hwithout
      split at hwithout
      · simp at hwithout
      · obtain rfl := Option.some.inj hwithout
        exact h.node nodeId old hold
    case isFalse => exact h.node nodeId node hnode

theorem Signed.before_insert {g₀ : NetworkGraph K} (h : Signed c events g) (hlinked : Linked g)
    (hbefore : g₀ = g ∧ g.channels[shortChannelId]? = none ∨
      g.removeChannel shortChannelId = some g₀) : Signed c events g₀ := by
  rcases hbefore with ⟨rfl, -⟩ | hremove
  · exact h
  · obtain ⟨old, hr⟩ := hlinked.removed_of_eq hremove
    exact h.removed hr

theorem Signed.expire (h : Signed c events g) (minTime : Nat) :
    Signed c events { g with channels := g.channels.map fun _ info => info.expire minTime } where
  channel scid chan' hchan' := by
    rw [Std.TreeMap.getElem?_map] at hchan'
    obtain ⟨chan, hchan, rfl⟩ := Option.map_eq_some_iff.mp hchan'
    exact (h.channel scid chan hchan).expire minTime
  node := h.node

/-- One channel more says nothing more of a node. -/
theorem nodeSigned_withChannel {nodeId : NodeId} {node : Option (NodeInfo K)}
    (h : ∀ old, node = some old → NodeSigned c events nodeId old) :
    NodeSigned c events nodeId (.withChannel shortChannelId node) := by
  cases node with
  | none =>
    intro info hinfo
    simp [NodeInfo.withChannel] at hinfo
  | some old => exact h old rfl

/-- **A step keeps it**: what a message changes is what it says, and it was verified. -/
theorem Change.signed {event : GossipEvent K} (hchange : Change c g event g')
    (hmem : event ∈ events) (hlinked : Linked g) (h : Signed c events g) :
    Signed c events g' := by
  cases hchange with
  | same => exact h
  | announced hverify hnode =>
    refine ⟨h.channel, fun other found hfound => node_update h.node ?_ hfound⟩
    intro info' hinfo'
    obtain rfl := Option.some.inj hinfo'
    exact ⟨_, hmem, rfl, rfl, hverify⟩
  | inserted hverify hbefore hkeys =>
    refine ⟨fun scid chan hchan =>
      channel_insert h.channel (channelSigned_new hmem hverify) hchan, ?_⟩
    have hnodes := (h.before_insert hlinked hbefore).node
    intro nodeId node hnode
    rw [insertChannel_nodes _ _ _ (serialize_ne hkeys)] at hnode
    split at hnode
    case isTrue =>
      obtain rfl := Option.some.inj hnode
      exact nodeSigned_withChannel (hnodes nodeId)
    case isFalse => exact hnodes nodeId node hnode
  | updated hchan hcheck happly =>
    obtain ⟨hchannels, hnodes⟩ := updateInboundFees_cases happly
    constructor
    · rw [hchannels]
      intro scid chan' hchan'
      exact channel_insert h.channel ((h.channel _ _ hchan).update hmem hcheck) hchan'
    · rcases hnodes with ⟨hnodes, -⟩ | ⟨node, lowest, hnode, hnodes, -⟩
      · rw [hnodes]
        exact h.node
      · rw [hnodes]
        intro other found hfound
        refine node_update h.node ?_ hfound
        intro info hinfo
        exact h.node _ node hnode info hinfo
  | removed hremove =>
    obtain ⟨chan, hr⟩ := hlinked.removed_of_eq hremove
    exact h.removed hr
  | disabled hchan =>
    exact ⟨fun scid chan' hchan' =>
      channel_insert h.channel (h.channel _ _ hchan).disable hchan', h.node⟩
  | expired hremove =>
    have hboth := foldlM_induction (P := fun g : NetworkGraph K => Linked g ∧ Signed c events g)
      (fun g scid _ g' hg hremove => by
        obtain ⟨chan, hr⟩ := hg.1.removed_of_eq hremove
        exact ⟨hr.linked hg.1, hg.2.removed hr⟩) ⟨hlinked.expire _, h.expire _⟩ hremove
    exact hboth.2

theorem signed_new : Signed c events (new : NetworkGraph K) where
  channel scid chan hchan := by simp [new] at hchan
  node nodeId node hnode := by simp [new] at hnode

/-- **The graph is signed**: in every run from the empty graph, all of it comes from messages that
were received, and was signed by those whom it is about. -/
theorem graph_signed [DecidableEq K] (c : Secp K) (chainAccess : Option ChainAccess)
    {events : List (GossipEvent K)} {g : NetworkGraph K}
    (hrun : new.handleAll c chainAccess events = some g) : Signed c events g := by
  have hboth : Linked g ∧ Signed c events g :=
    foldlM_induction (P := fun g => Linked g ∧ Signed c events g)
      (fun g event hmem g' hg hstep =>
        ⟨(change_of_step hstep).linked hg.1, (change_of_step hstep).signed hmem hg.1 hg.2⟩)
      ⟨linked_new, signed_new⟩ hrun
  exact hboth.2

/-- With two nodes, a channel and an update. -/
theorem graph_signed_of_two :
    ∃ g : NetworkGraph UInt8, new.handleAll byteSecp none (twoNodes.take 3) = some g ∧
      Signed byteSecp (twoNodes.take 3) g ∧
      ∃ chan info, g.channels[7]? = some chan ∧ ChannelInfo.direction chan false = some info := by
  have heval : ((new.handleAll byteSecp none (twoNodes.take 3)).bind fun g =>
      (g.channels[7]?).bind fun chan => chan.direction false).isSome = true := by decide +kernel
  obtain ⟨info, hinfo⟩ := Option.isSome_iff_exists.mp heval
  obtain ⟨g, hg, hinfo⟩ := Option.bind_eq_some_iff.mp hinfo
  obtain ⟨chan, hchan, hinfo⟩ := Option.bind_eq_some_iff.mp hinfo
  exact ⟨g, hg, graph_signed byteSecp none hg, chan, info, hchan, hinfo⟩

end NetworkGraph

end Gossip
end HiddenLightning
