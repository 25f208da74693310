import HiddenLightning.NetworkGraph

/-! # The graph from both sides

In every run of the graph the channels and the nodes agree: a channel is in the lists of its two
nodes, once, and a list has no other channels in it.  For this reason none of the `unwrap`s and
panics is ever reached. -/
namespace HiddenLightning
namespace Gossip
open IncidenceLists
variable {K : Type}

/-- Steps that keep a property keep it all along. -/
theorem foldlM_induction {α σ : Type} {f : σ → α → Option σ} {P : σ → Prop} {s s' : σ}
    {l : List α} (hstep : ∀ s, ∀ a ∈ l, ∀ s', P s → f s a = some s' → P s') (hs : P s)
    (h : l.foldlM f s = some s') : P s' := by
  induction l generalizing s with
  | nil =>
    obtain rfl : s = s' := by simpa using h
    exact hs
  | cons a l ih =>
    rw [List.foldlM_cons, Option.bind_eq_bind, Option.bind_eq_some_iff] at h
    obtain ⟨t, ht, hl⟩ := h
    apply ih _ (hstep s a (by simp) t hs ht) hl
    intro s b hb
    exact hstep s b (by simp [hb])

namespace NetworkGraph

/-- The two nodes of a channel. -/
def ends (channels : Std.TreeMap Nat (ChannelInfo K)) (shortChannelId : Nat) :
    Option (NodeId × NodeId) :=
  channels[shortChannelId]?.map fun chan => (chan.nodeOne, chan.nodeTwo)

/-- The channels a node lists; an unknown node lists none. -/
def edges (nodes : NodeId → Option (NodeInfo K)) (nodeId : NodeId) : List Nat :=
  ((nodes nodeId).map (·.channels)).getD []

/-- Channels and nodes agree, and there is no node without a channel. -/
structure Linked (g : NetworkGraph K) : Prop where
  consistent : Consistent (ends g.channels) (edges g.nodes)
  nonempty : ∀ nodeId node, g.nodes nodeId = some node → node.channels ≠ []

variable {g g' : NetworkGraph K} {shortChannelId : Nat} {chan : ChannelInfo K}

theorem ends_of_getElem? (h : g.channels[shortChannelId]? = some chan) :
    ends g.channels shortChannelId = some (chan.nodeOne, chan.nodeTwo) := by
  rw [ends, h, Option.map_some]

namespace Linked

theorem distinct (h : Linked g) (hchan : g.channels[shortChannelId]? = some chan) :
    chan.nodeOne ≠ chan.nodeTwo :=
  h.consistent.distinct _ _ _ (ends_of_getElem? hchan)

/-- A channel is listed by a node that is there. -/
theorem exists_of_mem {nodeId : NodeId} (h : shortChannelId ∈ edges g.nodes nodeId) :
    ∃ node, g.nodes nodeId = some node ∧ shortChannelId ∈ node.channels := by
  unfold edges at h
  cases hnode : g.nodes nodeId with
  | none => simp [hnode] at h
  | some node => exact ⟨node, rfl, by simpa [hnode] using h⟩

/-- Its first node is there and lists it. -/
theorem nodeOne (h : Linked g) (hchan : g.channels[shortChannelId]? = some chan) :
    ∃ node, g.nodes chan.nodeOne = some node ∧ shortChannelId ∈ node.channels :=
  exists_of_mem (h.consistent.mem_left (ends_of_getElem? hchan))

/-- And so is its second, and does. -/
theorem nodeTwo (h : Linked g) (hchan : g.channels[shortChannelId]? = some chan) :
    ∃ node, g.nodes chan.nodeTwo = some node ∧ shortChannelId ∈ node.channels :=
  exists_of_mem (h.consistent.mem_right (ends_of_getElem? hchan))

/-- A node lists channels that are there, and that are its own. -/
theorem channel_of_mem (h : Linked g) {nodeId : NodeId} {node : NodeInfo K}
    (hnode : g.nodes nodeId = some node) (hmem : shortChannelId ∈ node.channels) :
    ∃ chan, g.channels[shortChannelId]? = some chan ∧
      (nodeId = chan.nodeOne ∨ nodeId = chan.nodeTwo) := by
  have hedge : shortChannelId ∈ edges g.nodes nodeId := by simpa [edges, hnode] using hmem
  obtain ⟨a, b, hends, hab⟩ := (h.consistent.mem_iff _ _).mp hedge
  unfold ends at hends
  rw [Option.map_eq_some_iff] at hends
  obtain ⟨chan, hchan, hpair⟩ := hends
  simp only [Prod.mk.injEq] at hpair
  exact ⟨chan, hchan, by rw [hpair.1, hpair.2]; exact hab⟩

end Linked

/-! ## Taking a channel out -/

/-- A node that is there loses the channel; the `unwrap` of its entry is safe. -/
theorem removeFromNode_eq {nodes : NodeId → Option (NodeInfo K)} {nodeId : NodeId}
    {node : NodeInfo K} (h : nodes nodeId = some node) (shortChannelId : Nat) :
    removeFromNode nodes nodeId shortChannelId =
      some (Function.update nodes nodeId (node.without shortChannelId)) := by
  unfold removeFromNode
  rw [h]

/-- Both nodes are there, and each is left without the channel. -/
theorem Linked.removeChannelInNodes_eq (h : Linked g)
    (hchan : g.channels[shortChannelId]? = some chan) :
    ∃ nodes, removeChannelInNodes g.nodes chan shortChannelId = some nodes ∧
      ∀ nodeId, nodes nodeId =
        if nodeId = chan.nodeOne ∨ nodeId = chan.nodeTwo then
          (g.nodes nodeId).bind (·.without shortChannelId)
        else g.nodes nodeId := by
  obtain ⟨one, hone, -⟩ := h.nodeOne hchan
  obtain ⟨two, htwo, -⟩ := h.nodeTwo hchan
  have hne := h.distinct hchan
  have htwo' : Function.update g.nodes chan.nodeOne (one.without shortChannelId) chan.nodeTwo =
      some two := by rw [Function.update_of_ne hne.symm, htwo]
  refine ⟨Function.update (Function.update g.nodes chan.nodeOne (one.without shortChannelId))
    chan.nodeTwo (two.without shortChannelId), ?_, ?_⟩
  · unfold removeChannelInNodes
    rw [removeFromNode_eq hone, Option.bind_eq_bind, Option.bind_some, removeFromNode_eq htwo']
  · intro nodeId
    by_cases hnode2 : nodeId = chan.nodeTwo
    · subst hnode2
      simp [htwo]
    · rw [Function.update_of_ne hnode2]
      by_cases hnode1 : nodeId = chan.nodeOne
      · subst hnode1
        simp [hone]
      · simp [hnode1, hnode2]

/-- To take a channel from its two nodes is to unlink it from both. -/
theorem edges_without {nodes nodes' : NodeId → Option (NodeInfo K)} {nodeOne nodeTwo : NodeId}
    (hne : nodeOne ≠ nodeTwo)
    (h : ∀ nodeId, nodes' nodeId =
      if nodeId = nodeOne ∨ nodeId = nodeTwo then (nodes nodeId).bind (·.without shortChannelId)
      else nodes nodeId) :
    edges nodes' =
      unlink (unlink (edges nodes) nodeOne shortChannelId) nodeTwo shortChannelId := by
  have hwithout : ∀ nodeId, nodes' nodeId = (nodes nodeId).bind (·.without shortChannelId) →
      edges nodes' nodeId = (edges nodes nodeId).filter (· ≠ shortChannelId) := by
    intro nodeId hnode
    unfold edges
    rw [hnode]
    cases nodes nodeId with
    | none => rfl
    | some node =>
      simp only [Option.bind_some, NodeInfo.without, Option.map_some, Option.getD_some]
      split
      case isTrue hnil => simpa using hnil.symm
      case isFalse => rfl
  funext nodeId
  by_cases h2 : nodeId = nodeTwo
  · subst h2
    rw [unlink, Function.update_self, unlink, Function.update_of_ne hne.symm,
      hwithout nodeId (by rw [h, if_pos (.inr rfl)])]
  · rw [unlink, Function.update_of_ne h2]
    by_cases h1 : nodeId = nodeOne
    · subst h1
      rw [unlink, Function.update_self, hwithout nodeId (by rw [h, if_pos (.inl rfl)])]
    · rw [unlink, Function.update_of_ne h1, edges, h, if_neg (by simp [h1, h2])]
      rfl

/-- A node that is kept has a channel left. -/
theorem nonempty_without {node node' : NodeInfo K} (h : node.without shortChannelId = some node') :
    node'.channels ≠ [] := by
  unfold NodeInfo.without at h
  split at h
  case isTrue => simp at h
  case isFalse hne =>
    obtain rfl := Option.some.inj h
    exact hne

theorem ends_erase (channels : Std.TreeMap Nat (ChannelInfo K)) (shortChannelId : Nat) :
    ends (channels.erase shortChannelId) = Function.update (ends channels) shortChannelId none := by
  funext scid
  by_cases h : scid = shortChannelId
  · subst h
    simp [ends]
  · rw [Function.update_of_ne h, ends, Std.TreeMap.getElem?_erase,
      if_neg (by simpa using Ne.symm h)]
    rfl

/-- What it takes to say that a channel was taken out of the graph. -/
structure Removed (g g' : NetworkGraph K) (shortChannelId : Nat) (chan : ChannelInfo K) :
    Prop where
  chan_eq : g.channels[shortChannelId]? = some chan
  channels_eq : g'.channels = g.channels.erase shortChannelId
  nodes_eq : ∀ nodeId, g'.nodes nodeId =
    if nodeId = chan.nodeOne ∨ nodeId = chan.nodeTwo then
      (g.nodes nodeId).bind (·.without shortChannelId)
    else g.nodes nodeId

/-- A channel that has gone from both its nodes leaves the graph linked. -/
theorem Removed.linked (hr : Removed g g' shortChannelId chan) (h : Linked g) : Linked g' where
  consistent := by
    rw [hr.channels_eq, ends_erase, edges_without (h.distinct hr.chan_eq) hr.nodes_eq]
    exact h.consistent.remove (ends_of_getElem? hr.chan_eq)
  nonempty nodeId node hnode := by
    rw [hr.nodes_eq] at hnode
    split at hnode
    case isTrue =>
      obtain ⟨node', -, hnode'⟩ := Option.bind_eq_some_iff.mp hnode
      exact nonempty_without hnode'
    case isFalse => exact h.nonempty nodeId node hnode

/-- A channel that is there can be removed: both its nodes are there, and list it. -/
theorem Linked.removeChannel_eq (h : Linked g)
    (hchan : g.channels[shortChannelId]? = some chan) :
    ∃ g', g.removeChannel shortChannelId = some g' ∧ Removed g g' shortChannelId chan := by
  obtain ⟨nodes, hnodes, hspec⟩ := h.removeChannelInNodes_eq hchan
  refine ⟨⟨g.channels.erase shortChannelId, nodes⟩, ?_, hchan, rfl, hspec⟩
  unfold removeChannel
  simp [hchan, hnodes]

theorem Linked.removed_of_eq (h : Linked g) (heq : g.removeChannel shortChannelId = some g') :
    ∃ chan, Removed g g' shortChannelId chan := by
  cases hchan : g.channels[shortChannelId]? with
  | none => simp [removeChannel, hchan] at heq
  | some chan =>
    obtain ⟨g'', heq', hr⟩ := h.removeChannel_eq hchan
    rw [heq] at heq'
    obtain rfl := Option.some.inj heq'
    exact ⟨chan, hr⟩

/-! ## Putting a channel in -/

/-- A new channel is added to its two nodes, and to no other. -/
theorem insertChannel_nodes (channels : Std.TreeMap Nat (ChannelInfo K))
    (nodes : NodeId → Option (NodeInfo K)) (shortChannelId : Nat) {info : ChannelInfo K}
    (hne : info.nodeOne ≠ info.nodeTwo) (nodeId : NodeId) :
    (insertChannel channels nodes shortChannelId info).nodes nodeId =
      if nodeId = info.nodeOne ∨ nodeId = info.nodeTwo then
        some (.withChannel shortChannelId (nodes nodeId))
      else nodes nodeId := by
  simp only [insertChannel, addToNode]
  by_cases h2 : nodeId = info.nodeTwo
  · subst h2
    simp [hne.symm]
  · rw [Function.update_of_ne h2]
    by_cases h1 : nodeId = info.nodeOne
    · subst h1
      simp
    · simp [h1, h2]

theorem ends_insert (channels : Std.TreeMap Nat (ChannelInfo K)) (shortChannelId : Nat)
    (info : ChannelInfo K) :
    ends (channels.insert shortChannelId info) =
      Function.update (ends channels) shortChannelId (some (info.nodeOne, info.nodeTwo)) := by
  funext scid
  by_cases h : scid = shortChannelId
  · subst h
    simp [ends]
  · rw [Function.update_of_ne h, ends, Std.TreeMap.getElem?_insert,
      if_neg (by simpa using Ne.symm h)]
    rfl

/-- To add a channel to its two nodes is to link it to both. -/
theorem edges_withChannel {nodes nodes' : NodeId → Option (NodeInfo K)} {nodeOne nodeTwo : NodeId}
    (hne : nodeOne ≠ nodeTwo)
    (h : ∀ nodeId, nodes' nodeId =
      if nodeId = nodeOne ∨ nodeId = nodeTwo then some (.withChannel shortChannelId (nodes nodeId))
      else nodes nodeId) :
    edges nodes' = link (link (edges nodes) nodeOne shortChannelId) nodeTwo shortChannelId := by
  have hwith : ∀ nodeId, nodes' nodeId = some (.withChannel shortChannelId (nodes nodeId)) →
      edges nodes' nodeId = edges nodes nodeId ++ [shortChannelId] := by
    intro nodeId hnode
    unfold edges
    rw [hnode]
    cases nodes nodeId with
    | none => rfl
    | some node => rfl
  funext nodeId
  by_cases h2 : nodeId = nodeTwo
  · subst h2
    rw [link, Function.update_self, link, Function.update_of_ne hne.symm,
      hwith nodeId (by rw [h, if_pos (.inr rfl)])]
  · rw [link, Function.update_of_ne h2]
    by_cases h1 : nodeId = nodeOne
    · subst h1
      rw [link, Function.update_self, hwith nodeId (by rw [h, if_pos (.inl rfl)])]
    · rw [link, Function.update_of_ne h1, edges, h, if_neg (by simp [h1, h2])]
      rfl

/-- `channels` may still have the channel of before, as only the new one counts. -/
theorem Linked.insertChannel {channels : Std.TreeMap Nat (ChannelInfo K)} {info : ChannelInfo K}
    (h : Linked g) (hnone : g.channels[shortChannelId]? = none)
    (hne : info.nodeOne ≠ info.nodeTwo)
    (hends : ends (channels.insert shortChannelId info) =
      ends (g.channels.insert shortChannelId info)) :
    Linked (insertChannel channels g.nodes shortChannelId info) where
  consistent := by
    have hnone : ends g.channels shortChannelId = none := by rw [ends, hnone, Option.map_none]
    show Consistent (ends (channels.insert shortChannelId info)) _
    rw [hends, ends_insert, edges_withChannel hne (insertChannel_nodes channels g.nodes _ hne)]
    exact h.consistent.add hnone hne
  nonempty nodeId node hnode := by
    rw [insertChannel_nodes _ _ _ hne] at hnode
    split at hnode
    case isTrue =>
      obtain rfl := Option.some.inj hnode
      cases g.nodes nodeId with
      | none => simp [NodeInfo.withChannel]
      | some node => simp [NodeInfo.withChannel]
    case isFalse => exact h.nonempty nodeId node hnode

/-- Nothing else than the ends of the channels and the lists of the nodes counts. -/
theorem Linked.congr (h : Linked g) (hends : ends g'.channels = ends g.channels)
    (hnodes : ∀ nodeId, (g'.nodes nodeId).map (·.channels) = (g.nodes nodeId).map (·.channels)) :
    Linked g' where
  consistent := by
    have hedges : edges g'.nodes = edges g.nodes := by
      funext nodeId
      rw [edges, edges, hnodes]
    rw [hends, hedges]
    exact h.consistent
  nonempty nodeId node hnode := by
    have hchannels := hnodes nodeId
    rw [hnode, Option.map_some] at hchannels
    obtain ⟨node', hnode', hchannels'⟩ := Option.map_eq_some_iff.mp hchannels.symm
    rw [← hchannels']
    exact h.nonempty nodeId node' hnode'

/-- A channel kept with the same ends. -/
theorem ends_insert_of_eq {info : ChannelInfo K} (hchan : g.channels[shortChannelId]? = some chan)
    (hone : info.nodeOne = chan.nodeOne) (htwo : info.nodeTwo = chan.nodeTwo) :
    ends (g.channels.insert shortChannelId info) = ends g.channels := by
  rw [ends_insert, hone, htwo, ← ends_of_getElem? hchan, Function.update_eq_self]

/-- A node kept with the same list. -/
theorem map_channels_update {nodes : NodeId → Option (NodeInfo K)} {nodeId : NodeId}
    {node node' : NodeInfo K} (hnode : nodes nodeId = some node)
    (hchannels : node'.channels = node.channels) (other : NodeId) :
    (Function.update nodes nodeId (some node') other).map (·.channels) =
      (nodes other).map (·.channels) := by
  by_cases h : other = nodeId
  · subst h
    rw [Function.update_self, hnode, Option.map_some, Option.map_some, hchannels]
  · rw [Function.update_of_ne h]

/-! ## What an event can do -/

/-- The changes that an event can make to the graph. -/
inductive Change (c : Secp K) : NetworkGraph K → GossipEvent K → NetworkGraph K → Prop
  | same (g : NetworkGraph K) (event : GossipEvent K) : Change c g event g
  | announced {g : NetworkGraph K} {msg : NodeAnnouncement K} {node : NodeInfo K}
      (hverify : c.verify (c.nodeHash msg.contents) msg.signature msg.contents.nodeId = true)
      (hnode : g.nodes (c.serialize msg.contents.nodeId) = some node) :
      Change c g (.nodeAnnouncement msg)
        { g with
          nodes := Function.update g.nodes (c.serialize msg.contents.nodeId)
            (some { node with
              announcementInfo := some (newAnnouncementInfo msg.contents (some msg)) }) }
  | inserted {g g₀ : NetworkGraph K} {time : Nat} {msg : ChannelAnnouncement K}
      {utxoValue : Option Nat} (hverify : verifyAnnouncement c msg = .ok ())
      (hbefore : g₀ = g ∧ g.channels[msg.contents.shortChannelId]? = none ∨
        g.removeChannel msg.contents.shortChannelId = some g₀)
      (hkeys : msg.contents.nodeId1 ≠ msg.contents.nodeId2) :
      Change c g (.channelAnnouncement time msg)
        (insertChannel g.channels g₀.nodes msg.contents.shortChannelId
          (newChannelInfo c time msg.contents (some msg) utxoValue))
  | updated {g g' : NetworkGraph K} {time : Nat} {msg : ChannelUpdate} {chan : ChannelInfo K}
      (hchan : g.channels[msg.contents.shortChannelId]? = some chan)
      (hcheck : checkUpdate c chan msg.contents (some msg.signature) = .ok ())
      (happly : g.applyUpdate chan msg.contents (some msg) = some g') :
      Change c g (.channelUpdate time msg) g'
  | removed {g g' : NetworkGraph K} {shortChannelId : Nat}
      (hremove : g.removeChannel shortChannelId = some g') :
      Change c g (.channelFailure shortChannelId true) g'
  | disabled {g : NetworkGraph K} {shortChannelId : Nat} {chan : ChannelInfo K}
      (hchan : g.channels[shortChannelId]? = some chan) :
      Change c g (.channelFailure shortChannelId false)
        { g with channels := g.channels.insert shortChannelId chan.disable }
  | expired {g g' : NetworkGraph K} {time minTime : Nat} {scidsToRemove : List Nat}
      (hremove : scidsToRemove.foldlM removeChannel
        { g with channels := g.channels.map fun _ info => info.expire minTime } = some g') :
      Change c g (.removeStaleChannels time) g'

theorem secpVerifySig_ok {c : Secp K} {hash : Bytes} {sig : Signature} {key : K}
    {msgType : String} (h : secpVerifySig c hash sig key msgType = .ok ()) :
    c.verify hash sig key = true := by
  unfold secpVerifySig at h
  split at h
  case isTrue hverify => exact hverify
  case isFalse => simp at h

variable {c : Secp K} {chainAccess : Option ChainAccess}

/-- An announcement of a node that is accepted. -/
theorem change_of_nodeAnnouncement {msg : NodeAnnouncement K}
    (h : g.updateNodeFromAnnouncement c msg = .ok g') : Change c g (.nodeAnnouncement msg) g' := by
  unfold updateNodeFromAnnouncement at h
  cases hverify : secpVerifySig c (c.nodeHash msg.contents) msg.signature msg.contents.nodeId
      "node_announcement" with
  | error err => simp [hverify, bind, Except.bind] at h
  | ok u =>
    simp only [hverify, bind, Except.bind, updateNodeFromAnnouncementIntern] at h
    split at h
    case h_1 => simp at h
    case h_2 node hnode =>
      split at h
      case h_1 => simp at h
      case h_2 =>
        obtain rfl := Except.ok.inj h
        exact .announced (secpVerifySig_ok hverify) hnode

/-- An announcement of a channel that is accepted. -/
theorem change_of_channelAnnouncement [DecidableEq K] {time : Nat} {msg : ChannelAnnouncement K}
    (h : g.updateChannelFromAnnouncement c chainAccess time msg = some (.ok g')) :
    Change c g (.channelAnnouncement time msg) g' := by
  unfold updateChannelFromAnnouncement at h
  split at h
  case h_1 => simp at h
  case h_2 hverify =>
    unfold updateChannelFromUnsignedAnnouncementIntern at h
    split at h
    case isTrue => simp at h
    case isFalse hkeys =>
      have hne : msg.contents.nodeId1 ≠ msg.contents.nodeId2 := fun heq => hkeys (.inl heq)
      split at h
      case h_1 => simp at h
      case h_2 value hvalue =>
        unfold addChannelBetweenNodes at h
        split at h
        case h_1 old hold =>
          split at h
          case isTrue =>
            simp only [Option.bind_eq_bind, Option.bind_eq_some_iff] at h
            obtain ⟨nodes, hnodes, hinsert⟩ := h
            obtain rfl := Except.ok.inj (Option.some.inj hinsert)
            have hremove : g.removeChannel msg.contents.shortChannelId =
                some ⟨g.channels.erase msg.contents.shortChannelId, nodes⟩ := by
              simp [removeChannel, hold, hnodes]
            exact .inserted hverify (.inr hremove) hne
          case isFalse => simp at h
        case h_2 hnone =>
          obtain rfl := Except.ok.inj (Option.some.inj h)
          exact .inserted hverify (.inl ⟨rfl, hnone⟩) hne

/-- An update that is accepted. -/
theorem change_of_channelUpdate {time : Nat} {msg : ChannelUpdate}
    (h : g.updateChannel c time msg = some (.ok g')) : Change c g (.channelUpdate time msg) g' := by
  unfold updateChannel updateChannelIntern at h
  split at h
  case isTrue => simp at h
  case isFalse =>
    split at h
    case h_1 => simp at h
    case h_2 =>
      split at h
      case h_1 => simp at h
      case h_2 chan hchan =>
        split at h
        case h_1 => simp at h
        case h_2 hcheck =>
          obtain ⟨g'', happly, hok⟩ := Option.map_eq_some_iff.mp h
          obtain rfl := Except.ok.inj hok
          exact .updated hchan hcheck happly

/-- A channel that a payment failed at: it is disabled, or goes. -/
theorem change_of_channelFailure {isPermanent : Bool}
    (h : g.channelFailed shortChannelId isPermanent = some g') :
    Change c g (.channelFailure shortChannelId isPermanent) g' := by
  unfold channelFailed at h
  split at h
  case h_1 =>
    obtain rfl := Option.some.inj h
    exact .same g _
  case h_2 chan hchan =>
    cases isPermanent with
    | true => exact .removed h
    | false =>
      obtain rfl := Option.some.inj h
      exact .disabled hchan

/-- Pruning: old directions and old channels go, one after the other. -/
theorem change_of_removeStale {time : Nat} (h : g.removeStaleChannelsWithTime time = some g') :
    Change c g (.removeStaleChannels time) g' := by
  unfold removeStaleChannelsWithTime at h
  split at h
  case isTrue =>
    obtain rfl := Option.some.inj h
    exact .same g _
  case isFalse =>
    split at h
    case isTrue =>
      obtain rfl := Option.some.inj h
      exact .same g _
    case isFalse => exact .expired h

theorem change_of_step [DecidableEq K] {event : GossipEvent K}
    (h : g.step c chainAccess event = some g') : Change c g event g' := by
  obtain ⟨result, hresult, hg⟩ := Option.map_eq_some_iff.mp h
  cases result with
  | error err =>
    obtain rfl : g = g' := hg
    exact .same g event
  | ok g'' =>
    obtain rfl : g'' = g' := hg
    cases event with
    | nodeAnnouncement msg => exact change_of_nodeAnnouncement (Option.some.inj hresult)
    | channelAnnouncement time msg => exact change_of_channelAnnouncement hresult
    | channelUpdate time msg => exact change_of_channelUpdate hresult
    | channelFailure shortChannelId isPermanent =>
      obtain ⟨g₁, hg₁, heq⟩ := Option.map_eq_some_iff.mp hresult
      obtain rfl := Except.ok.inj heq
      exact change_of_channelFailure hg₁
    | nodeFailure nodeId isPermanent =>
      obtain rfl := Except.ok.inj (Option.some.inj hresult)
      exact .same g _
    | removeStaleChannels time =>
      obtain ⟨g₁, hg₁, heq⟩ := Option.map_eq_some_iff.mp hresult
      obtain rfl := Except.ok.inj heq
      exact change_of_removeStale hg₁

/-! ## Every change keeps the links -/

/-- Different keys have different node ids. -/
theorem serialize_ne {key key' : K} (h : key ≠ key') : c.serialize key ≠ c.serialize key' := by
  intro heq
  have hslice := c.fromSlice_serialize key
  rw [heq, c.fromSlice_serialize] at hslice
  exact h (Option.some.inj hslice).symm

theorem setDirection_ends (chan : ChannelInfo K) (fromTwo : Bool) (info : ChannelUpdateInfo) :
    (chan.setDirection fromTwo info).nodeOne = chan.nodeOne ∧
      (chan.setDirection fromTwo info).nodeTwo = chan.nodeTwo := by
  cases fromTwo with
  | false => exact ⟨rfl, rfl⟩
  | true => exact ⟨rfl, rfl⟩

/-- Only the fees of one node change. -/
theorem updateInboundFees_cases {destNodeId : NodeId} {msg : UnsignedChannelUpdate}
    {chanWasEnabled : Bool} (h : g.updateInboundFees destNodeId msg chanWasEnabled = some g') :
    g'.channels = g.channels ∧
      (g'.nodes = g.nodes ∧ msg.chanEnabled = false ∧ chanWasEnabled = false ∨
        ∃ node lowest, g.nodes destNodeId = some node ∧
          g'.nodes = Function.update g.nodes destNodeId
            (some { node with lowestInboundChannelFees := lowest }) ∧
          (msg.chanEnabled = true ∧
              lowest = some ((node.lowestInboundChannelFees.map
                (RoutingFees.min ⟨msg.feeBaseMsat, msg.feeProportionalMillionths⟩)).getD
                  ⟨msg.feeBaseMsat, msg.feeProportionalMillionths⟩) ∨
            msg.chanEnabled = false ∧
              lowestInbound g.channels destNodeId node.channels = some lowest)) := by
  unfold updateInboundFees at h
  split at h
  case isTrue henabled =>
    simp only [Option.bind_eq_bind, Option.bind_eq_some_iff] at h
    obtain ⟨node, hnode, heq⟩ := h
    obtain rfl := Option.some.inj heq
    exact ⟨rfl, .inr ⟨node, _, hnode, rfl, .inl ⟨henabled, rfl⟩⟩⟩
  case isFalse hdisabled =>
    simp only [Bool.not_eq_true] at hdisabled
    split at h
    case isTrue =>
      simp only [Option.bind_eq_bind, Option.bind_eq_some_iff] at h
      obtain ⟨node, hnode, lowest, hlowest, heq⟩ := h
      obtain rfl := Option.some.inj heq
      exact ⟨rfl, .inr ⟨node, lowest, hnode, rfl, .inr ⟨hdisabled, hlowest⟩⟩⟩
    case isFalse hwas =>
      obtain rfl := Option.some.inj h
      exact ⟨rfl, .inl ⟨rfl, hdisabled, by simpa using hwas⟩⟩

/-- An update changes neither nodes nor lists. -/
theorem Linked.applyUpdate (h : Linked g) {msg : UnsignedChannelUpdate}
    {fullMsg : Option ChannelUpdate} (hchan : g.channels[msg.shortChannelId]? = some chan)
    (happly : g.applyUpdate chan msg fullMsg = some g') : Linked g' := by
  obtain ⟨hone, htwo⟩ :=
    setDirection_ends chan msg.fromTwo (getNewChannelInfo msg fullMsg)
  obtain ⟨hchannels, hnodes⟩ := updateInboundFees_cases happly
  apply h.congr
  · rw [hchannels]
    exact ends_insert_of_eq hchan hone htwo
  · rcases hnodes with ⟨hnodes, -⟩ | ⟨node, lowest, hnode, hnodes, -⟩
    · intro nodeId
      rw [hnodes]
    · rw [hnodes]
      exact map_channels_update hnode rfl

/-- Nor do directions that are too old. -/
theorem Linked.expire (h : Linked g) (minTime : Nat) :
    Linked { g with channels := g.channels.map fun _ info => info.expire minTime } := by
  apply h.congr
  · funext scid
    rw [ends, ends, Std.TreeMap.getElem?_map, Option.map_map]
    rfl
  · intro nodeId
    rfl

theorem Linked.removeChannel (h : Linked g) (hremove : g.removeChannel shortChannelId = some g') :
    Linked g' := by
  obtain ⟨chan, hr⟩ := h.removed_of_eq hremove
  exact hr.linked h

/-- What the graph is before a channel goes into it. -/
theorem Linked.before_insert {g₀ : NetworkGraph K} (h : Linked g)
    (hbefore : g₀ = g ∧ g.channels[shortChannelId]? = none ∨
      g.removeChannel shortChannelId = some g₀) :
    Linked g₀ ∧ g₀.channels[shortChannelId]? = none ∧
      ∀ info : ChannelInfo K, ends (g.channels.insert shortChannelId info) =
        ends (g₀.channels.insert shortChannelId info) := by
  rcases hbefore with ⟨rfl, hnone⟩ | hremove
  · exact ⟨h, hnone, fun _ => rfl⟩
  · obtain ⟨chan, hr⟩ := h.removed_of_eq hremove
    refine ⟨hr.linked h, ?_, ?_⟩
    · rw [hr.channels_eq, Std.TreeMap.getElem?_erase_self]
    · intro info
      rw [ends_insert, ends_insert, hr.channels_eq, ends_erase, Function.update_idem]

theorem Change.linked {event : GossipEvent K} (hchange : Change c g event g') (h : Linked g) :
    Linked g' := by
  cases hchange with
  | same => exact h
  | announced hverify hnode =>
    apply h.congr
    · rfl
    · exact map_channels_update hnode rfl
  | inserted hverify hbefore hkeys =>
    obtain ⟨h₀, hnone, hends⟩ := h.before_insert hbefore
    exact h₀.insertChannel hnone (serialize_ne hkeys) (hends _)
  | updated hchan hcheck happly => exact h.applyUpdate hchan happly
  | removed hremove => exact h.removeChannel hremove
  | disabled hchan =>
    apply h.congr
    · exact ends_insert_of_eq hchan rfl rfl
    · intro nodeId
      rfl
  | expired hremove =>
    exact foldlM_induction (fun _ _ _ _ h => h.removeChannel) (h.expire _) hremove

/-! ## No panic -/

/-- The fees are found again without a panic when the listed channels are there. -/
theorem lowestInbound_isSome {channels : Std.TreeMap Nat (ChannelInfo K)} (destNodeId : NodeId)
    {chanIds : List Nat} (h : ∀ chanId ∈ chanIds, ∃ chan, channels[chanId]? = some chan) :
    ∃ lowest, lowestInbound channels destNodeId chanIds = some lowest := by
  unfold lowestInbound
  generalize (none : Option RoutingFees) = lowest
  induction chanIds generalizing lowest with
  | nil => exact ⟨lowest, rfl⟩
  | cons chanId chanIds ih =>
    obtain ⟨chan, hchan⟩ := h chanId (by simp)
    have ih := ih (fun chanId hmem => h chanId (by simp [hmem]))
    rw [List.foldlM_cons, hchan, Option.map_some]
    exact ih _

/-- The node that a direction leads to is there. -/
theorem Linked.dest (h : Linked g) (hchan : g.channels[shortChannelId]? = some chan)
    (fromTwo : Bool) : ∃ node, g.nodes (chan.dest fromTwo) = some node := by
  cases fromTwo with
  | false =>
    obtain ⟨node, hnode, -⟩ := h.nodeTwo hchan
    exact ⟨node, hnode⟩
  | true =>
    obtain ⟨node, hnode, -⟩ := h.nodeOne hchan
    exact ⟨node, hnode⟩

/-- So an update that has passed its checks does not panic. -/
theorem Linked.applyUpdate_isSome (h : Linked g) {msg : UnsignedChannelUpdate}
    (fullMsg : Option ChannelUpdate) (hchan : g.channels[msg.shortChannelId]? = some chan) :
    ∃ g', g.applyUpdate chan msg fullMsg = some g' := by
  obtain ⟨hone, htwo⟩ := setDirection_ends chan msg.fromTwo (getNewChannelInfo msg fullMsg)
  obtain ⟨node, hnode⟩ := h.dest hchan msg.fromTwo
  have hset : Linked { g with
      channels := g.channels.insert msg.shortChannelId
        (chan.setDirection msg.fromTwo (getNewChannelInfo msg fullMsg)) } := by
    apply h.congr
    · exact ends_insert_of_eq hchan hone htwo
    · intro nodeId
      rfl
  have hchannels : ∀ chanId ∈ node.channels, ∃ chan', (g.channels.insert msg.shortChannelId
      (chan.setDirection msg.fromTwo (getNewChannelInfo msg fullMsg)))[chanId]? = some chan' := by
    intro chanId hmem
    obtain ⟨chan', hchan', -⟩ := hset.channel_of_mem hnode hmem
    exact ⟨chan', hchan'⟩
  obtain ⟨lowest, hlowest⟩ := lowestInbound_isSome (chan.dest msg.fromTwo) hchannels
  unfold NetworkGraph.applyUpdate updateInboundFees
  split
  · simp [hnode]
  · split
    · simp only [hnode, hlowest, Option.bind_eq_bind, Option.bind_some]
      exact ⟨_, rfl⟩
    · exact ⟨_, rfl⟩

/-- Channels that are all there can be taken out one after the other. -/
theorem Linked.removeAll_isSome {scids : List Nat} (h : Linked g) (hnodup : scids.Nodup)
    (hmem : ∀ scid ∈ scids, ∃ chan, g.channels[scid]? = some chan) :
    ∃ g', scids.foldlM NetworkGraph.removeChannel g = some g' := by
  induction scids generalizing g with
  | nil => exact ⟨g, rfl⟩
  | cons scid scids ih =>
    obtain ⟨chan, hchan⟩ := hmem scid (by simp)
    obtain ⟨g', hremove, hr⟩ := h.removeChannel_eq hchan
    obtain ⟨hnotin, hnodup⟩ := List.nodup_cons.mp hnodup
    rw [List.foldlM_cons, hremove]
    apply ih (hr.linked h) hnodup
    intro scid' hscid'
    obtain ⟨chan', hchan'⟩ := hmem scid' (by simp [hscid'])
    have hne : scid ≠ scid' := fun heq => hnotin (heq ▸ hscid')
    exact ⟨chan', by rw [hr.channels_eq, Std.TreeMap.getElem?_erase, if_neg (by simpa using hne),
      hchan']⟩

/-- Nor does pruning: every channel it removes is there when its turn comes. -/
theorem Linked.removeStale_isSome (h : Linked g) (time : Nat) :
    ∃ g', g.removeStaleChannelsWithTime time = some g' := by
  unfold removeStaleChannelsWithTime
  split
  · exact ⟨g, rfl⟩
  · split
    · exact ⟨g, rfl⟩
    · refine (h.expire _).removeAll_isSome ?_ ?_
      · apply List.Nodup.sublist (List.filter_sublist.map _)
        rw [Std.TreeMap.map_fst_toList_eq_keys]
        exact Std.TreeMap.nodup_keys
      · intro scid hscid
        obtain ⟨⟨scid', chan⟩, hmem, rfl⟩ := List.mem_map.mp hscid
        have hmem := (List.mem_filter.mp hmem).1
        exact ⟨chan, Std.TreeMap.mem_toList_iff_getElem?_eq_some.mp hmem⟩

/-- Nor an announcement, which may put a channel in the place of another. -/
theorem Linked.announcement_isSome [DecidableEq K] (h : Linked g) (time : Nat)
    (msg : ChannelAnnouncement K) :
    ∃ result, g.updateChannelFromAnnouncement c chainAccess time msg = some result := by
  unfold updateChannelFromAnnouncement
  split
  · exact ⟨_, rfl⟩
  · unfold updateChannelFromUnsignedAnnouncementIntern
    split
    · exact ⟨_, rfl⟩
    · split
      · exact ⟨_, rfl⟩
      · unfold addChannelBetweenNodes
        split
        case h_1 old hold =>
          split
          · obtain ⟨nodes, hnodes, -⟩ := h.removeChannelInNodes_eq hold
            rw [hnodes]
            exact ⟨_, rfl⟩
          · exact ⟨_, rfl⟩
        case h_2 => exact ⟨_, rfl⟩

/-- Nor any update, when the clock is set. -/
theorem Linked.update_isSome (h : Linked g) {time : Nat} (msg : ChannelUpdate)
    (htime : staleChannelUpdateAgeLimitSecs ≤ time) :
    ∃ result, g.updateChannel c time msg = some result := by
  unfold updateChannel updateChannelIntern
  rw [if_neg (by omega)]
  split
  · exact ⟨_, rfl⟩
  · split
    · exact ⟨_, rfl⟩
    case h_2 chan hchan =>
      split
      · exact ⟨_, rfl⟩
      · obtain ⟨g', hg'⟩ := h.applyUpdate_isSome (some msg) hchan
        rw [hg']
        exact ⟨_, rfl⟩

theorem Linked.failure_isSome (h : Linked g) (shortChannelId : Nat) (isPermanent : Bool) :
    ∃ g', g.channelFailed shortChannelId isPermanent = some g' := by
  unfold channelFailed
  split
  · exact ⟨g, rfl⟩
  case h_2 chan hchan =>
    cases isPermanent with
    | true =>
      obtain ⟨g', hg', -⟩ := h.removeChannel_eq hchan
      exact ⟨g', hg'⟩
    | false => exact ⟨_, rfl⟩

theorem Linked.step_isSome [DecidableEq K] (h : Linked g) (c : Secp K)
    (chainAccess : Option ChainAccess) {event : GossipEvent K} (hclock : event.ClockSet) :
    ∃ g', g.step c chainAccess event = some g' := by
  have hhandle : ∃ result, g.handle c chainAccess event = some result := by
    cases event with
    | nodeAnnouncement msg => exact ⟨_, rfl⟩
    | channelAnnouncement time msg => exact h.announcement_isSome time msg
    | channelUpdate time msg => exact h.update_isSome msg hclock
    | channelFailure shortChannelId isPermanent =>
      obtain ⟨g', hg'⟩ := h.failure_isSome shortChannelId isPermanent
      exact ⟨.ok g', by rw [handle, hg', Option.map_some]⟩
    | nodeFailure nodeId isPermanent => exact ⟨_, rfl⟩
    | removeStaleChannels time =>
      obtain ⟨g', hg'⟩ := h.removeStale_isSome time
      exact ⟨.ok g', by rw [handle, hg', Option.map_some]⟩
  obtain ⟨result, hresult⟩ := hhandle
  exact ⟨_, by rw [step, hresult, Option.map_some]⟩

theorem linked_new : Linked (new : NetworkGraph K) where
  consistent := by
    have hends : ends (new : NetworkGraph K).channels = fun _ => none := by
      funext scid
      simp [ends, new]
    rw [hends]
    exact consistent_empty
  nonempty nodeId node hnode := by simp [new] at hnode

/-- Runs do not panic, from any graph whose channels and nodes agree. -/
theorem Linked.handleAll_isSome [DecidableEq K] (h : Linked g) (c : Secp K)
    (chainAccess : Option ChainAccess) {events : List (GossipEvent K)}
    (hclock : ∀ event ∈ events, event.ClockSet) :
    ∃ g', g.handleAll c chainAccess events = some g' ∧ Linked g' := by
  induction events generalizing g with
  | nil => exact ⟨g, rfl, h⟩
  | cons event events ih =>
    obtain ⟨g', hg'⟩ := h.step_isSome c chainAccess (hclock event (by simp))
    obtain ⟨g'', hg'', h''⟩ :=
      ih ((change_of_step hg').linked h) fun event hmem => hclock event (by simp [hmem])
    refine ⟨g'', ?_, h''⟩
    rw [handleAll, List.foldlM_cons, hg']
    exact hg''

/-- Whatever a node hears from its first start on, with a clock that is set, it does not panic;
every channel is with both its nodes, each of which has it once, and a node has channels, which are
there and its own. -/
theorem graph_agrees [DecidableEq K] (c : Secp K) (chainAccess : Option ChainAccess)
    {events : List (GossipEvent K)} (hclock : ∀ event ∈ events, event.ClockSet) :
    ∃ g : NetworkGraph K, new.handleAll c chainAccess events = some g ∧
      (∀ (scid : Nat) (chan : ChannelInfo K), g.channels[scid]? = some chan →
        chan.nodeOne ≠ chan.nodeTwo ∧
        ∀ nodeId, nodeId = chan.nodeOne ∨ nodeId = chan.nodeTwo →
          ∃ node, g.nodes nodeId = some node ∧ node.channels.count scid = 1) ∧
      ∀ nodeId node, g.nodes nodeId = some node →
        node.channels ≠ [] ∧
        ∀ scid ∈ node.channels, ∃ chan : ChannelInfo K, g.channels[scid]? = some chan ∧
          (nodeId = chan.nodeOne ∨ nodeId = chan.nodeTwo) := by
  obtain ⟨g, hg, h⟩ := (linked_new (K := K)).handleAll_isSome c chainAccess hclock
  refine ⟨g, hg, ?_, ?_⟩
  · intro scid chan hchan
    refine ⟨h.distinct hchan, ?_⟩
    have hcount : ∀ nodeId, (∃ node, g.nodes nodeId = some node ∧ scid ∈ node.channels) →
        ∃ node, g.nodes nodeId = some node ∧ node.channels.count scid = 1 := by
      rintro nodeId ⟨node, hnode, hmem⟩
      have hnodup := h.consistent.nodup nodeId
      simp only [edges, hnode, Option.map_some, Option.getD_some] at hnodup
      exact ⟨node, hnode, List.count_eq_one_of_mem hnodup hmem⟩
    rintro nodeId (rfl | rfl)
    · exact hcount _ (h.nodeOne hchan)
    · exact hcount _ (h.nodeTwo hchan)
  · intro nodeId node hnode
    exact ⟨h.nonempty nodeId node hnode, fun scid hmem => h.channel_of_mem hnode hmem⟩

end NetworkGraph

/-! ## A network of two nodes -/

/-- Keys of one byte, and signatures that are the hash with the key after it. -/
def byteSecp : Secp UInt8 where
  serialize key := [key]
  fromSlice
    | [key] => some key
    | _ => none
  fromSlice_serialize _ := rfl
  nodeHash msg := [0, msg.nodeId]
  announcementHash msg := [1, UInt8.ofNat msg.shortChannelId]
  updateHash msg := [2, UInt8.ofNat msg.shortChannelId, UInt8.ofNat msg.timestamp]
  verify hash sig key := sig = hash ++ [key]
  fundingScript key key' := [key, key']

/-- Channel 7 between nodes 1 and 2. -/
def announcement : ChannelAnnouncement UInt8 where
  nodeSignature1 := [1, 7, 1]
  nodeSignature2 := [1, 7, 2]
  bitcoinSignature1 := [1, 7, 3]
  bitcoinSignature2 := [1, 7, 4]
  contents :=
    { features := []
      chainHash := []
      shortChannelId := 7
      nodeId1 := 1
      nodeId2 := 2
      bitcoinKey1 := 3
      bitcoinKey2 := 4
      excessData := [] }

/-- An update of the channel by node 1. -/
def updateByOne (timestamp feeBaseMsat : Nat) : ChannelUpdate where
  signature := [2, 7, UInt8.ofNat timestamp, 1]
  contents :=
    { chainHash := []
      shortChannelId := 7
      timestamp
      flags := 0
      cltvExpiryDelta := 40
      htlcMinimumMsat := 1
      htlcMaximumMsat := some 1000
      feeBaseMsat
      feeProportionalMillionths := 0
      excessData := [] }

/-- The channel is announced, used and lost. -/
def twoNodes : List (GossipEvent UInt8) :=
  [.channelAnnouncement 2000000 announcement, .channelUpdate 2000000 (updateByOne 1999998 10),
    .channelUpdate 2000000 (updateByOne 1999999 20), .channelFailure 7 true]

namespace NetworkGraph

/-- Two nodes and their channel, which is announced, updated and pruned. -/
theorem graph_agrees_of_two :
    (∃ g : NetworkGraph UInt8, new.handleAll byteSecp none (twoNodes.take 3) = some g ∧
      (g.channels[7]?).isSome = true) ∧
    ∃ g : NetworkGraph UInt8, new.handleAll byteSecp none twoNodes = some g ∧
      ∀ nodeId node, g.nodes nodeId = some node → node.channels ≠ [] := by
  have hclock : ∀ event ∈ twoNodes, event.ClockSet := by
    simp [twoNodes, GossipEvent.ClockSet, staleChannelUpdateAgeLimitSecs]
  constructor
  · have hsome : (new.handleAll byteSecp none (twoNodes.take 3)).map
        (fun g => (g.channels[7]?).isSome) = some true := by decide +kernel
    obtain ⟨g, hg, hchannel⟩ := Option.map_eq_some_iff.mp hsome
    exact ⟨g, hg, hchannel⟩
  · obtain ⟨g, hg, -, hnodes⟩ := graph_agrees byteSecp none hclock
    exact ⟨g, hg, fun nodeId node hnode => (hnodes nodeId node hnode).1⟩

end NetworkGraph

end Gossip
end HiddenLightning
