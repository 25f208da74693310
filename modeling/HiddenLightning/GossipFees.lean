import HiddenLightning.GossipLinks

/-! # The lowest fees of a node

A node is kept with the lowest fees of the channels to it, by which the router reckons what it
costs at least to get there.  They are lowered with every update of a channel, and only sometimes
found anew: not when an update raises the fees of a channel, nor when a channel is disabled after a
failed payment, expires or goes.  So they may be lower than any channel's, but never higher. -/
namespace HiddenLightning
namespace Gossip
variable {K : Type}

/-- Neither of the two fees is higher. -/
def RoutingFees.Le (a b : RoutingFees) : Prop :=
  a.baseMsat ≤ b.baseMsat ∧ a.proportionalMillionths ≤ b.proportionalMillionths

theorem RoutingFees.Le.trans {a b c : RoutingFees} (hab : a.Le b) (hbc : b.Le c) : a.Le c :=
  ⟨Nat.le_trans hab.1 hbc.1, Nat.le_trans hab.2 hbc.2⟩

theorem RoutingFees.min_le_left (a b : RoutingFees) : (a.min b).Le a :=
  ⟨Nat.min_le_left _ _, Nat.min_le_left _ _⟩

theorem RoutingFees.min_le_right (a b : RoutingFees) : (a.min b).Le b :=
  ⟨Nat.min_le_right _ _, Nat.min_le_right _ _⟩

/-- There are lowest fees, and they are not above `fees`. -/
def Below (lowest : Option RoutingFees) (fees : RoutingFees) : Prop :=
  ∃ low, lowest = some low ∧ low.Le fees

/-- Looking at one channel more lowers the fees, if it does anything. -/
theorem below_lowerFees_of_below {destNodeId : NodeId} {lowest : Option RoutingFees}
    {fees : RoutingFees} (h : Below lowest fees) (chan : ChannelInfo K) :
    Below (lowerFees destNodeId lowest chan) fees := by
  obtain ⟨low, rfl, hle⟩ := h
  unfold lowerFees
  split
  · exact ⟨low, rfl, hle⟩
  · split
    · exact ⟨_, rfl, (RoutingFees.min_le_left _ _).trans hle⟩
    · exact ⟨low, rfl, hle⟩

/-- And takes them below those of that channel, if it is enabled. -/
theorem below_lowerFees {destNodeId : NodeId} {chan : ChannelInfo K} {info : ChannelUpdateInfo}
    (hinfo : chan.inbound destNodeId = some info) (henabled : info.enabled = true)
    (lowest : Option RoutingFees) : Below (lowerFees destNodeId lowest chan) info.fees := by
  unfold lowerFees
  simp only [hinfo, henabled, if_true]
  exact ⟨_, rfl, RoutingFees.min_le_right _ _⟩

/-- So those of all the listed channels are below those of each. -/
theorem below_lowestInbound {channels : Std.TreeMap Nat (ChannelInfo K)} {destNodeId : NodeId}
    {chanIds : List Nat} {lowest : Option RoutingFees}
    (h : lowestInbound channels destNodeId chanIds = some lowest) {chanId : Nat}
    (hmem : chanId ∈ chanIds) {chan : ChannelInfo K} (hchan : channels[chanId]? = some chan)
    {info : ChannelUpdateInfo} (hinfo : chan.inbound destNodeId = some info)
    (henabled : info.enabled = true) : Below lowest info.fees := by
  unfold lowestInbound at h
  generalize (none : Option RoutingFees) = start at h
  induction chanIds generalizing start with
  | nil => simp at hmem
  | cons other chanIds ih =>
    rw [List.foldlM_cons, Option.bind_eq_bind, Option.bind_eq_some_iff] at h
    obtain ⟨next, hnext, hrest⟩ := h
    obtain ⟨chan', hchan', rfl⟩ := Option.map_eq_some_iff.mp hnext
    rcases List.mem_cons.mp hmem with rfl | hmem
    · rw [hchan] at hchan'
      obtain rfl := Option.some.inj hchan'
      apply foldlM_induction (P := fun lowest => Below lowest info.fees) _
        (below_lowerFees hinfo henabled start) hrest
      intro low other _ low' hlow hnext
      obtain ⟨chan', -, rfl⟩ := Option.map_eq_some_iff.mp hnext
      exact below_lowerFees_of_below hlow chan'
    · exact ih hmem _ hrest

namespace NetworkGraph

/-- The lowest fees of a node are not above those of any channel that is enabled towards it. -/
def FeesBound (g : NetworkGraph K) : Prop :=
  ∀ destNodeId node, g.nodes destNodeId = some node →
    ∀ scid ∈ node.channels, ∀ chan, g.channels[scid]? = some chan →
      ∀ info, chan.inbound destNodeId = some info → info.enabled = true →
        Below node.lowestInboundChannelFees info.fees

variable {g g' : NetworkGraph K} {chan : ChannelInfo K} {c : Secp K}

/-- It is enough that nothing is enabled which was not before, with the same fees of its node. -/
theorem FeesBound.mono (h : FeesBound g)
    (hmono : ∀ destNodeId node', g'.nodes destNodeId = some node' →
      ∀ scid ∈ node'.channels, ∀ chan', g'.channels[scid]? = some chan' →
        ∀ info, chan'.inbound destNodeId = some info → info.enabled = true →
          ∃ node chan, g.nodes destNodeId = some node ∧ scid ∈ node.channels ∧
            g.channels[scid]? = some chan ∧ chan.inbound destNodeId = some info ∧
            node'.lowestInboundChannelFees = node.lowestInboundChannelFees) :
    FeesBound g' := by
  intro destNodeId node' hnode' scid hmem chan' hchan' info hinfo henabled
  obtain ⟨node, chan, hnode, hmem, hchan, hinfo, hfees⟩ :=
    hmono destNodeId node' hnode' scid hmem chan' hchan' info hinfo henabled
  rw [hfees]
  exact h destNodeId node hnode scid hmem chan hchan info hinfo henabled

/-- Directions that are disabled, or forgotten, and others as they are. -/
theorem FeesBound.of_inbound (h : FeesBound g) (hnodes : g'.nodes = g.nodes)
    (hchannels : ∀ (scid : Nat) (chan' : ChannelInfo K), g'.channels[scid]? = some chan' →
      ∃ chan, g.channels[scid]? = some chan ∧
        ∀ destNodeId info, chan'.inbound destNodeId = some info → info.enabled = true →
          chan.inbound destNodeId = some info) : FeesBound g' := by
  apply h.mono
  intro destNodeId node' hnode' scid hmem chan' hchan' info hinfo henabled
  obtain ⟨chan, hchan, hinbound⟩ := hchannels scid chan' hchan'
  rw [hnodes] at hnode'
  exact ⟨node', chan, hnode', hmem, hchan, hinbound _ _ hinfo henabled, rfl⟩

/-- A channel that is disabled is so in both directions. -/
theorem inbound_disable {destNodeId : NodeId} {info : ChannelUpdateInfo}
    (h : chan.disable.inbound destNodeId = some info) : info.enabled = false := by
  unfold ChannelInfo.inbound ChannelInfo.disable at h
  split at h
  · obtain ⟨_, -, rfl⟩ := Option.map_eq_some_iff.mp h
    rfl
  · obtain ⟨_, -, rfl⟩ := Option.map_eq_some_iff.mp h
    rfl

/-- A direction that is still there was there. -/
theorem inbound_expire {minTime : Nat} {destNodeId : NodeId} {info : ChannelUpdateInfo}
    (h : (chan.expire minTime).inbound destNodeId = some info) :
    chan.inbound destNodeId = some info := by
  unfold ChannelInfo.inbound ChannelInfo.expire at h
  unfold ChannelInfo.inbound
  by_cases hone : chan.nodeOne = destNodeId
  · rw [if_pos hone] at h ⊢
    exact (Option.filter_eq_some_iff.mp h).1
  · rw [if_neg hone] at h ⊢
    exact (Option.filter_eq_some_iff.mp h).1

/-- Fewer channels, and the same fees. -/
theorem FeesBound.removed {shortChannelId : Nat} (h : FeesBound g)
    (hr : Removed g g' shortChannelId chan) : FeesBound g' := by
  apply h.mono
  intro destNodeId node' hnode' scid hmem chan' hchan' info hinfo henabled
  rw [hr.channels_eq, Std.TreeMap.getElem?_erase] at hchan'
  have hchan : g.channels[scid]? = some chan' := by
    split at hchan'
    · simp at hchan'
    · exact hchan'
  rw [hr.nodes_eq] at hnode'
  split at hnode'
  case isTrue =>
    obtain ⟨node, hnode, hwithout⟩ := Option.bind_eq_some_iff.mp hnode'
    unfold NodeInfo.without at hwithout
    split at hwithout
    · simp at hwithout
    · obtain rfl := Option.some.inj hwithout
      exact ⟨node, chan', hnode, (List.mem_filter.mp hmem).1, hchan, hinfo, rfl⟩
  case isFalse => exact ⟨node', chan', hnode', hmem, hchan, hinfo, rfl⟩

/-- A new channel has nothing enabled. -/
theorem FeesBound.insertChannel {channels : Std.TreeMap Nat (ChannelInfo K)}
    {shortChannelId : Nat} {info : ChannelInfo K} (h : FeesBound g)
    (hne : info.nodeOne ≠ info.nodeTwo) (hnew : info.oneToTwo = none ∧ info.twoToOne = none)
    (hchannels : ∀ scid, scid ≠ shortChannelId → channels[scid]? = g.channels[scid]?) :
    FeesBound (insertChannel channels g.nodes shortChannelId info) := by
  apply h.mono
  intro destNodeId node' hnode' scid hmem chan' hchan' update hupdate henabled
  have hother : scid ≠ shortChannelId := by
    rintro rfl
    simp only [NetworkGraph.insertChannel, Std.TreeMap.getElem?_insert_self,
      Option.some.injEq] at hchan'
    subst hchan'
    simp [ChannelInfo.inbound, hnew] at hupdate
  have hchan : g.channels[scid]? = some chan' := by
    rw [← hchannels scid hother, ← hchan']
    simp [NetworkGraph.insertChannel, Std.TreeMap.getElem?_insert, Ne.symm hother]
  rw [insertChannel_nodes _ _ _ hne] at hnode'
  split at hnode'
  case isTrue =>
    obtain rfl := Option.some.inj hnode'
    cases hnode : g.nodes destNodeId with
    | none =>
      simp only [NodeInfo.withChannel, hnode, List.mem_singleton] at hmem
      exact absurd hmem hother
    | some node =>
      simp only [NodeInfo.withChannel, hnode, List.mem_append, List.mem_singleton, hother,
        or_false] at hmem
      exact ⟨node, chan', rfl, hmem, hchan, hupdate, rfl⟩
  case isFalse => exact ⟨node', chan', hnode', hmem, hchan, hupdate, rfl⟩

/-- An update is for the direction to one node, and the direction to the other stays. -/
theorem inbound_setDirection (hne : chan.nodeOne ≠ chan.nodeTwo) (fromTwo : Bool)
    (info : ChannelUpdateInfo) {destNodeId : NodeId}
    (hdest : destNodeId = chan.nodeOne ∨ destNodeId = chan.nodeTwo) :
    (chan.setDirection fromTwo info).inbound destNodeId =
      if destNodeId = chan.dest fromTwo then some info else chan.inbound destNodeId := by
  rcases hdest with rfl | rfl
  · cases fromTwo with
    | false => simp [ChannelInfo.inbound, ChannelInfo.setDirection, ChannelInfo.dest, hne]
    | true => simp [ChannelInfo.inbound, ChannelInfo.setDirection, ChannelInfo.dest]
  · cases fromTwo with
    | false => simp [ChannelInfo.inbound, ChannelInfo.setDirection, ChannelInfo.dest, hne]
    | true => simp [ChannelInfo.inbound, ChannelInfo.setDirection, ChannelInfo.dest, hne, hne.symm]

/-- A direction after an update is what it was, or it is that of the update. -/
theorem inbound_cases {channels : Std.TreeMap Nat (ChannelInfo K)} {shortChannelId scid : Nat}
    {fromTwo : Bool} {update info : ChannelUpdateInfo} {chan' : ChannelInfo K}
    {destNodeId : NodeId} (hchan : channels[shortChannelId]? = some chan)
    (hne : chan.nodeOne ≠ chan.nodeTwo)
    (hchan' : (channels.insert shortChannelId (chan.setDirection fromTwo update))[scid]? =
      some chan')
    (hends : destNodeId = chan'.nodeOne ∨ destNodeId = chan'.nodeTwo)
    (hinfo : chan'.inbound destNodeId = some info) :
    (∃ old, channels[scid]? = some old ∧ ChannelInfo.inbound old destNodeId = some info) ∨
      destNodeId = chan.dest fromTwo ∧ info = update := by
  by_cases hscid : scid = shortChannelId
  · subst hscid
    simp only [Std.TreeMap.getElem?_insert_self, Option.some.injEq] at hchan'
    subst hchan'
    obtain ⟨hone, htwo⟩ := setDirection_ends chan fromTwo update
    rw [hone, htwo] at hends
    rw [inbound_setDirection hne _ _ hends] at hinfo
    split at hinfo
    case isTrue hdest => exact .inr ⟨hdest, (Option.some.inj hinfo).symm⟩
    case isFalse => exact .inl ⟨chan, hchan, hinfo⟩
  · rw [Std.TreeMap.getElem?_insert, if_neg (by simpa using Ne.symm hscid)] at hchan'
    exact .inl ⟨chan', hchan', hinfo⟩

/-- **An update keeps the bound**: the fees are lowered to those of the channel, or found anew. -/
theorem FeesBound.applyUpdate (h : FeesBound g) (hlinked : Linked g) {msg : UnsignedChannelUpdate}
    {fullMsg : Option ChannelUpdate} (hchan : g.channels[msg.shortChannelId]? = some chan)
    (happly : g.applyUpdate chan msg fullMsg = some g') : FeesBound g' := by
  have hlinked' := hlinked.applyUpdate hchan happly
  have hne := hlinked.distinct hchan
  obtain ⟨hchannels, hnodes⟩ := updateInboundFees_cases happly
  intro destNodeId node' hnode' scid hmem chan' hchan' info hinfo henabled
  obtain ⟨chan'', hchan'', hends⟩ := hlinked'.channel_of_mem hnode' hmem
  rw [hchan'] at hchan''
  obtain rfl := Option.some.inj hchan''
  have hbefore := inbound_cases hchan hne (hchannels ▸ hchan') hends hinfo
  rcases hnodes with ⟨hnodes, hdisabled, -⟩ | ⟨node, lowest, hnode, hnodes, hlowest⟩
  · -- The channel was not enabled, and is not now.
    rw [hnodes] at hnode'
    rcases hbefore with ⟨old, hold, hinbound⟩ | ⟨-, rfl⟩
    · exact h destNodeId node' hnode' scid hmem old hold info hinbound henabled
    · rw [show (getNewChannelInfo msg fullMsg).enabled = msg.chanEnabled from rfl] at henabled
      simp [hdisabled] at henabled
  · rw [hnodes] at hnode'
    by_cases hdest : destNodeId = chan.dest msg.fromTwo
    · subst hdest
      rw [Function.update_self] at hnode'
      obtain rfl := Option.some.inj hnode'
      rcases hlowest with ⟨-, rfl⟩ | ⟨-, hlowest⟩
      · -- The new fees, and the lowest of before, are not below the lowest of now.
        rcases hbefore with ⟨old, hold, hinbound⟩ | ⟨-, rfl⟩
        · obtain ⟨low, hlow, hle⟩ := h _ node hnode scid hmem old hold info hinbound henabled
          exact ⟨_, rfl, by
            rw [hlow, Option.map_some, Option.getD_some]
            exact (RoutingFees.min_le_right _ _).trans hle⟩
        · refine ⟨_, rfl, ?_⟩
          cases node.lowestInboundChannelFees with
          | none => exact ⟨Nat.le_refl _, Nat.le_refl _⟩
          | some low => exact RoutingFees.min_le_left _ _
      · rw [← hchannels] at hlowest
        exact below_lowestInbound hlowest hmem hchan' hinfo henabled
    · rw [Function.update_of_ne hdest] at hnode'
      rcases hbefore with ⟨old, hold, hinbound⟩ | ⟨hdest', -⟩
      · exact h destNodeId node' hnode' scid hmem old hold info hinbound henabled
      · exact absurd hdest' hdest

theorem FeesBound.announced {nodeId : NodeId} {node : NodeInfo K} (h : FeesBound g)
    (hnode : g.nodes nodeId = some node) (info : NodeAnnouncementInfo K) :
    FeesBound { g with
      nodes := Function.update g.nodes nodeId
        (some { node with announcementInfo := some info }) } := by
  apply h.mono
  intro destNodeId node' hnode' scid hmem chan' hchan' update hupdate henabled
  by_cases hdest : destNodeId = nodeId
  · subst hdest
    simp only [Function.update_self, Option.some.injEq] at hnode'
    subst hnode'
    exact ⟨node, chan', hnode, hmem, hchan', hupdate, rfl⟩
  · simp only [Function.update_of_ne hdest] at hnode'
    exact ⟨node', chan', hnode', hmem, hchan', hupdate, rfl⟩

theorem FeesBound.disable {shortChannelId : Nat} (h : FeesBound g)
    (hchan : g.channels[shortChannelId]? = some chan) :
    FeesBound { g with channels := g.channels.insert shortChannelId chan.disable } := by
  apply h.of_inbound
  · rfl
  · intro scid chan' hchan'
    rw [Std.TreeMap.getElem?_insert] at hchan'
    split at hchan'
    case isTrue hscid =>
      obtain rfl : shortChannelId = scid := by simpa using hscid
      obtain rfl := Option.some.inj hchan'
      refine ⟨chan, hchan, ?_⟩
      intro destNodeId info hinfo henabled
      rw [inbound_disable hinfo] at henabled
      simp at henabled
    case isFalse => exact ⟨chan', hchan', fun _ _ hinfo _ => hinfo⟩

theorem FeesBound.expire (h : FeesBound g) (minTime : Nat) :
    FeesBound { g with channels := g.channels.map fun _ info => info.expire minTime } := by
  apply h.of_inbound
  · rfl
  · intro scid chan' hchan'
    rw [Std.TreeMap.getElem?_map] at hchan'
    obtain ⟨chan, hchan, rfl⟩ := Option.map_eq_some_iff.mp hchan'
    exact ⟨chan, hchan, fun _ _ hinfo _ => inbound_expire hinfo⟩

/-- **So does every step.** -/
theorem Change.feesBound {event : GossipEvent K} (hchange : Change c g event g')
    (hlinked : Linked g) (h : FeesBound g) : FeesBound g' := by
  cases hchange with
  | same => exact h
  | announced hverify hnode => exact h.announced hnode _
  | inserted hverify hbefore hkeys =>
    rcases hbefore with ⟨rfl, -⟩ | hremove
    · exact h.insertChannel (serialize_ne hkeys) ⟨rfl, rfl⟩ fun _ _ => rfl
    · obtain ⟨old, hr⟩ := hlinked.removed_of_eq hremove
      apply (h.removed hr).insertChannel (serialize_ne hkeys) ⟨rfl, rfl⟩
      intro scid hscid
      rw [hr.channels_eq, Std.TreeMap.getElem?_erase, if_neg (by simpa using Ne.symm hscid)]
  | updated hchan hcheck happly => exact h.applyUpdate hlinked hchan happly
  | removed hremove =>
    obtain ⟨chan, hr⟩ := hlinked.removed_of_eq hremove
    exact h.removed hr
  | disabled hchan => exact h.disable hchan
  | expired hremove =>
    have hboth := foldlM_induction (P := fun g : NetworkGraph K => Linked g ∧ FeesBound g)
      (fun g scid _ g' hg hremove => by
        obtain ⟨chan, hr⟩ := hg.1.removed_of_eq hremove
        exact ⟨hr.linked hg.1, hg.2.removed hr⟩) ⟨hlinked.expire _, h.expire _⟩ hremove
    exact hboth.2

theorem feesBound_new : FeesBound (new : NetworkGraph K) := by
  intro destNodeId node hnode
  simp [new] at hnode

/-- In every run that does not panic, the lowest fees of a node are not above those of any channel
that is enabled towards it. -/
theorem lowest_fees_not_above [DecidableEq K] (c : Secp K) (chainAccess : Option ChainAccess)
    {events : List (GossipEvent K)} {g : NetworkGraph K}
    (hrun : new.handleAll c chainAccess events = some g) {scid : Nat} {chan : ChannelInfo K}
    (hchan : g.channels[scid]? = some chan) {destNodeId : NodeId}
    (hdest : destNodeId = chan.nodeOne ∨ destNodeId = chan.nodeTwo) {info : ChannelUpdateInfo}
    (hinfo : chan.inbound destNodeId = some info) (henabled : info.enabled = true) :
    ∃ node fees, g.nodes destNodeId = some node ∧ node.lowestInboundChannelFees = some fees ∧
      fees.baseMsat ≤ info.fees.baseMsat ∧
      fees.proportionalMillionths ≤ info.fees.proportionalMillionths := by
  have hboth : Linked g ∧ FeesBound g :=
    foldlM_induction (P := fun g => Linked g ∧ FeesBound g)
      (fun g event _ g' hg hstep =>
        ⟨(change_of_step hstep).linked hg.1, (change_of_step hstep).feesBound hg.1 hg.2⟩)
      ⟨linked_new, feesBound_new⟩ hrun
  have hnode : ∃ node, g.nodes destNodeId = some node ∧ scid ∈ node.channels := by
    rcases hdest with rfl | rfl
    · exact hboth.1.nodeOne hchan
    · exact hboth.1.nodeTwo hchan
  obtain ⟨node, hnode, hmem⟩ := hnode
  obtain ⟨fees, hfees, hle⟩ :=
    hboth.2 destNodeId node hnode scid hmem chan hchan info hinfo henabled
  exact ⟨node, fees, hnode, hfees, hle⟩

/-- After an update that raises the fees of the only channel to node 2, its lowest fees are those of
before. -/
theorem lowest_fees_not_above_of_two :
    ∃ g : NetworkGraph UInt8, new.handleAll byteSecp none (twoNodes.take 3) = some g ∧
      ∃ node fees, g.nodes [2] = some node ∧ node.lowestInboundChannelFees = some fees ∧
        fees.baseMsat ≤ 20 ∧ fees.baseMsat = 10 := by
  have heval : (new.handleAll byteSecp none (twoNodes.take 3)).bind (fun g =>
      (g.channels[7]?).bind fun chan => (chan.inbound [2]).map fun info =>
        (chan.nodeTwo, info.enabled, info.fees.baseMsat,
          (g.nodes [2]).bind fun node => node.lowestInboundChannelFees)) =
      some ([2], true, 20, some ⟨10, 0⟩) := by decide +kernel
  obtain ⟨g, hg, heval⟩ := Option.bind_eq_some_iff.mp heval
  obtain ⟨chan, hchan, heval⟩ := Option.bind_eq_some_iff.mp heval
  obtain ⟨info, hinfo, heval⟩ := Option.map_eq_some_iff.mp heval
  simp only [Prod.mk.injEq] at heval
  obtain ⟨htwo, henabled, hbase, hlowest⟩ := heval
  obtain ⟨node, fees, hnode, hfees, hle, -⟩ :=
    lowest_fees_not_above byteSecp none hg hchan (.inr htwo.symm) hinfo henabled
  rw [hnode, Option.bind_some, hfees] at hlowest
  obtain rfl := Option.some.inj hlowest
  exact ⟨g, hg, node, _, hnode, hfees, by rw [← hbase]; exact hle, rfl⟩

end NetworkGraph

end Gossip
end HiddenLightning
