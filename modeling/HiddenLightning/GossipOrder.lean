import HiddenLightning.GossipHistory

/-! # The order of updates

Gossip comes in any order.  Of the updates of a direction of a channel the latest is kept, and so
two nodes that hear of the same updates end up with the same channels, whatever the order.  (The
lowest fees of the nodes do depend on it.) -/
namespace HiddenLightning
namespace Gossip

/-! ## The latest wins -/

section Latest
variable {V : Type} (time : V → Nat)

/-- `new`, if it is later than what there is. -/
def keepLatest (old : Option V) (new : V) : Option V :=
  if ∀ value ∈ old, time value < time new then some new else old

variable {time}

/-- The later of two stays, whichever comes first. -/
theorem keepLatest_comm {a b : V} (h : time a = time b → a = b) (old : Option V) :
    keepLatest time (keepLatest time old a) b = keepLatest time (keepLatest time old b) a := by
  unfold keepLatest
  cases old with
  | none =>
    rcases Nat.lt_trichotomy (time a) (time b) with hlt | heq | hgt
    · simp [hlt, Nat.lt_asymm hlt]
    · simp [h heq]
    · simp [hgt, Nat.lt_asymm hgt]
  | some value =>
    by_cases ha : time value < time a
    · by_cases hb : time value < time b
      · rcases Nat.lt_trichotomy (time a) (time b) with hlt | heq | hgt
        · simp [ha, hb, hlt, Nat.lt_asymm hlt]
        · simp [h heq]
        · simp [ha, hb, hgt, Nat.lt_asymm hgt]
      · have hba : ¬ time a < time b := by omega
        simp [ha, hb, hba]
    · by_cases hb : time value < time b
      · have hab : ¬ time b < time a := by omega
        simp [ha, hb, hab]
      · simp [ha, hb]

end Latest

variable {K : Type}

/-! ## One channel -/

/-- What an update is checked for that depends neither on the updates before nor on the clock. -/
def Fits (c : Secp K) (chan : ChannelInfo K) (update : ChannelUpdate) : Prop :=
  checkMaximum chan update.contents = .ok () ∧
    verifyUpdate c chan update.contents update.signature = .ok ()

/-- A channel is its two directions, and what it is but for these. -/
theorem ChannelInfo.ext_directions {chan chan' : ChannelInfo K} (hblank : chan.blank = chan'.blank)
    (hdirection : ∀ fromTwo, chan.direction fromTwo = chan'.direction fromTwo) : chan = chan' := by
  obtain ⟨features, nodeOne, oneToTwo, nodeTwo, twoToOne, capacity, message, time⟩ := chan
  obtain ⟨features', nodeOne', oneToTwo', nodeTwo', twoToOne', capacity', message', time'⟩ := chan'
  have hone : oneToTwo = oneToTwo' := hdirection false
  have htwo : twoToOne = twoToOne' := hdirection true
  simp only [ChannelInfo.blank, ChannelInfo.mk.injEq] at hblank ⊢
  obtain ⟨rfl, rfl, -, rfl, -, rfl, rfl, rfl⟩ := hblank
  exact ⟨rfl, rfl, hone, rfl, htwo, rfl, rfl, rfl⟩

/-- An update that fits a channel fits it whatever its directions hold. -/
theorem fits_of_blank {c : Secp K} {chan chan' : ChannelInfo K} (h : chan.blank = chan'.blank)
    {update : ChannelUpdate} (hfits : Fits c chan update) : Fits c chan' update := by
  obtain ⟨features, nodeOne, oneToTwo, nodeTwo, twoToOne, capacity, message, time⟩ := chan
  obtain ⟨features', nodeOne', oneToTwo', nodeTwo', twoToOne', capacity', message', time'⟩ := chan'
  simp only [ChannelInfo.blank, ChannelInfo.mk.injEq] at h
  obtain ⟨rfl, rfl, -, rfl, -, rfl, rfl, rfl⟩ := h
  exact hfits

open Classical in
/-- The channel after an update for it that comes in time. -/
noncomputable def ChannelInfo.receive (c : Secp K) (chan : ChannelInfo K)
    (update : ChannelUpdate) : ChannelInfo K :=
  if Fits c chan update ∧
      ∀ info ∈ chan.direction update.contents.fromTwo,
        info.lastUpdate < update.contents.timestamp then
    chan.setDirection update.contents.fromTwo (getNewChannelInfo update.contents (some update))
  else chan

variable {c : Secp K} {chan : ChannelInfo K}

theorem blank_receive (c : Secp K) (chan : ChannelInfo K) (update : ChannelUpdate) :
    (chan.receive c update).blank = chan.blank := by
  unfold ChannelInfo.receive
  split
  · exact blank_setDirection _ _ _
  · rfl

theorem fits_receive_iff {update other : ChannelUpdate} :
    Fits c (chan.receive c update) other ↔ Fits c chan other :=
  ⟨fits_of_blank (blank_receive c chan update), fits_of_blank (blank_receive c chan update).symm⟩

/-- The latest update is kept for its direction. -/
theorem direction_receive_of_fits {update : ChannelUpdate} (h : Fits c chan update) :
    (chan.receive c update).direction update.contents.fromTwo =
      keepLatest (·.lastUpdate) (chan.direction update.contents.fromTwo)
        (getNewChannelInfo update.contents (some update)) := by
  unfold ChannelInfo.receive keepLatest
  simp only [h, true_and]
  split
  · rw [direction_setDirection, if_pos rfl]
    rw [if_pos ‹_›]
  · rw [if_neg ‹_›]

/-- Nothing else happens to a direction. -/
theorem direction_receive_of_not {update : ChannelUpdate} {fromTwo : Bool}
    (h : ¬ (Fits c chan update ∧ fromTwo = update.contents.fromTwo)) :
    (chan.receive c update).direction fromTwo = chan.direction fromTwo := by
  unfold ChannelInfo.receive
  split
  case isTrue hreceive =>
    rw [direction_setDirection, if_neg fun heq => h ⟨hreceive.1, heq⟩]
  case isFalse => rfl

/-- Two updates do the same to a channel in either order, unless they are different ones of one
direction at one time. -/
theorem receive_comm {a b : ChannelUpdate}
    (h : a.contents.fromTwo = b.contents.fromTwo →
      a.contents.timestamp = b.contents.timestamp → a = b) :
    (chan.receive c a).receive c b = (chan.receive c b).receive c a := by
  apply ChannelInfo.ext_directions
  · rw [blank_receive, blank_receive, blank_receive, blank_receive]
  · intro fromTwo
    by_cases ha : Fits c chan a ∧ fromTwo = a.contents.fromTwo
    · obtain ⟨hfitsA, rfl⟩ := ha
      by_cases hb : Fits c chan b ∧ a.contents.fromTwo = b.contents.fromTwo
      · obtain ⟨hfitsB, hsame⟩ := hb
        rw [direction_receive_of_fits (fits_receive_iff.mpr hfitsA), hsame,
          direction_receive_of_fits (fits_receive_iff.mpr hfitsB), direction_receive_of_fits hfitsB,
          ← hsame, direction_receive_of_fits hfitsA]
        apply keepLatest_comm
        intro htime
        rw [h hsame htime]
      · have hb' : ¬ (Fits c (chan.receive c a) b ∧
            a.contents.fromTwo = b.contents.fromTwo) := by rwa [fits_receive_iff]
        rw [direction_receive_of_not hb', direction_receive_of_fits hfitsA,
          direction_receive_of_fits (fits_receive_iff.mpr hfitsA), direction_receive_of_not hb]
    · have ha' : ¬ (Fits c (chan.receive c b) a ∧ fromTwo = a.contents.fromTwo) := by
        rwa [fits_receive_iff]
      rw [direction_receive_of_not ha']
      by_cases hb : Fits c chan b ∧ fromTwo = b.contents.fromTwo
      · obtain ⟨hfitsB, rfl⟩ := hb
        rw [direction_receive_of_fits hfitsB,
          direction_receive_of_fits (fits_receive_iff.mpr hfitsB), direction_receive_of_not ha]
      · have hb' : ¬ (Fits c (chan.receive c a) b ∧ fromTwo = b.contents.fromTwo) := by
          rwa [fits_receive_iff]
        rw [direction_receive_of_not hb', direction_receive_of_not ha, direction_receive_of_not hb]

/-! ## All the channels -/

/-- Channel `scid` after an update that comes in time, which may be for another. -/
noncomputable def ChannelInfo.receiveAt (c : Secp K) (scid : Nat) (chan : ChannelInfo K)
    (update : ChannelUpdate) : ChannelInfo K :=
  if update.contents.shortChannelId = scid then chan.receive c update else chan

/-- An update that is refused for another reason than the clock changes nothing. -/
theorem receive_eq_self {update : ChannelUpdate}
    (h : checkUpdate c chan update.contents (some update.signature) ≠ .ok ()) :
    chan.receive c update = chan := by
  unfold ChannelInfo.receive
  rw [if_neg]
  rintro ⟨⟨hmaximum, hverify⟩, hlatest⟩
  exact h (checkUpdate_ok_iff.mpr ⟨hmaximum, hlatest, hverify⟩)

theorem receive_eq_set {update : ChannelUpdate}
    (hcheck : checkUpdate c chan update.contents (some update.signature) = .ok ()) :
    chan.receive c update = chan.setDirection update.contents.fromTwo
      (getNewChannelInfo update.contents (some update)) := by
  obtain ⟨hmaximum, hlatest, hverify⟩ := checkUpdate_ok_iff.mp hcheck
  unfold ChannelInfo.receive
  rw [if_pos ⟨⟨hmaximum, hverify⟩, hlatest⟩]

/-- The updates that the clock does not refuse when they come, each given with the time it comes. -/
def timely (received : List (Nat × ChannelUpdate)) : List ChannelUpdate :=
  (received.filter fun update => (checkTimestamp update.1 update.2.contents).isOk).map Prod.snd

theorem timely_cons_of_error {time : Nat} {update : ChannelUpdate} {error : LightningError}
    (h : checkTimestamp time update.contents = .error error)
    (received : List (Nat × ChannelUpdate)) :
    timely ((time, update) :: received) = timely received := by
  have hisOk : (checkTimestamp time update.contents).isOk = false := by rw [h]; rfl
  rw [timely, List.filter_cons_of_neg (by simp [hisOk])]
  rfl

theorem timely_cons_of_ok {time : Nat} {update : ChannelUpdate}
    (h : checkTimestamp time update.contents = .ok ()) (received : List (Nat × ChannelUpdate)) :
    timely ((time, update) :: received) = update :: timely received := by
  have hisOk : (checkTimestamp time update.contents).isOk = true := by rw [h]; rfl
  rw [timely, List.filter_cons_of_pos (by simp [hisOk]), List.map_cons]
  rfl

namespace NetworkGraph
variable {chainAccess : Option ChainAccess} {g g' : NetworkGraph K}

/-- A graph that an update has left as it was. -/
theorem map_receiveAt_eq_self {update : ChannelUpdate}
    (h : ∀ chan, g.channels[update.contents.shortChannelId]? = some chan →
      chan.receive c update = chan) (scid : Nat) :
    g.channels[scid]? = g.channels[scid]?.map fun chan => chan.receiveAt c scid update := by
  cases hchan : g.channels[scid]? with
  | none => rfl
  | some chan =>
    rw [Option.map_some, ChannelInfo.receiveAt]
    split
    case isTrue hscid =>
      subst hscid
      rw [h chan hchan]
    case isFalse => rfl

variable [DecidableEq K]

theorem step_update_late {time : Nat} {update : ChannelUpdate} {error : LightningError}
    (h : g.step c chainAccess (.channelUpdate time update) = some g')
    (hlate : checkTimestamp time update.contents = .error error) : g' = g := by
  obtain ⟨result, hresult, rfl⟩ := Option.map_eq_some_iff.mp h
  rw [handle, updateChannel, updateChannelIntern] at hresult
  split at hresult
  case isTrue => simp at hresult
  case isFalse =>
    rw [hlate] at hresult
    obtain rfl := Option.some.inj hresult
    rfl

/-- An update that comes in time is received by its channel, and by no other. -/
theorem step_update_timely {time : Nat} {update : ChannelUpdate}
    (h : g.step c chainAccess (.channelUpdate time update) = some g')
    (htime : checkTimestamp time update.contents = .ok ()) (scid : Nat) :
    g'.channels[scid]? = g.channels[scid]?.map fun chan => chan.receiveAt c scid update := by
  obtain ⟨result, hresult, rfl⟩ := Option.map_eq_some_iff.mp h
  rw [handle, updateChannel, updateChannelIntern] at hresult
  split at hresult
  case isTrue => simp at hresult
  case isFalse =>
    simp only [htime] at hresult
    split at hresult
    case h_1 hnone =>
      obtain rfl := Option.some.inj hresult
      apply map_receiveAt_eq_self
      intro chan hchan
      simp [hchan] at hnone
    case h_2 chan hchan =>
      split at hresult
      case h_1 hcheck =>
        obtain rfl := Option.some.inj hresult
        apply map_receiveAt_eq_self
        intro chan' hchan'
        rw [hchan] at hchan'
        obtain rfl := Option.some.inj hchan'
        exact receive_eq_self fun hok => by simp [hok] at hcheck
      case h_2 hcheck =>
        obtain ⟨g'', happly, rfl⟩ := Option.map_eq_some_iff.mp hresult
        obtain ⟨hchannels, -⟩ := updateInboundFees_cases happly
        show g''.channels[scid]? = _
        rw [hchannels, Std.TreeMap.getElem?_insert]
        split
        case isTrue hscid =>
          obtain rfl : update.contents.shortChannelId = scid := by simpa using hscid
          rw [hchan, Option.map_some, ChannelInfo.receiveAt, if_pos rfl, receive_eq_set hcheck]
        case isFalse hscid =>
          have hscid : update.contents.shortChannelId ≠ scid := by simpa using hscid
          simp [ChannelInfo.receiveAt, hscid]

/-- The events of receiving updates, each with the time it comes. -/
def updateEvents (received : List (Nat × ChannelUpdate)) : List (GossipEvent K) :=
  received.map fun update => .channelUpdate update.1 update.2

/-- A channel receives the updates that come in time, in the order they come. -/
theorem handleAll_updates {received : List (Nat × ChannelUpdate)}
    (h : g.handleAll c chainAccess (updateEvents received) = some g') (scid : Nat) :
    g'.channels[scid]? = g.channels[scid]?.map fun chan =>
      (timely received).foldl (ChannelInfo.receiveAt c scid) chan := by
  induction received generalizing g with
  | nil =>
    obtain rfl : g = g' := by simpa [handleAll, updateEvents] using h
    simp [timely]
  | cons update received ih =>
    obtain ⟨time, update⟩ := update
    rw [handleAll, updateEvents, List.map_cons, List.foldlM_cons, Option.bind_eq_bind,
      Option.bind_eq_some_iff] at h
    obtain ⟨g₁, hstep, hrest⟩ := h
    cases hcheck : checkTimestamp time update.contents with
    | error =>
      obtain rfl := step_update_late hstep hcheck
      rw [ih hrest, timely_cons_of_error hcheck]
    | ok =>
      rw [ih hrest, step_update_timely hstep hcheck, Option.map_map, timely_cons_of_ok hcheck]
      rfl

/-- Two nodes with the same channels that receive the same updates in time, in any order and at any
times, have the same channels again, if no two different updates of a direction have the same
timestamp.  What the clock refuses when it comes does not count. -/
theorem updates_in_any_order {g₁ g₂ g₁' g₂' : NetworkGraph K}
    {received₁ received₂ : List (Nat × ChannelUpdate)}
    (hsame : ∀ scid : Nat, g₁.channels[scid]? = g₂.channels[scid]?)
    (hperm : (timely received₁).Perm (timely received₂))
    (htimestamps : ∀ a ∈ timely received₁, ∀ b ∈ timely received₁,
      a.contents.shortChannelId = b.contents.shortChannelId →
      a.contents.fromTwo = b.contents.fromTwo →
      a.contents.timestamp = b.contents.timestamp → a = b)
    (h₁ : g₁.handleAll c chainAccess (updateEvents received₁) = some g₁')
    (h₂ : g₂.handleAll c chainAccess (updateEvents received₂) = some g₂') (scid : Nat) :
    g₁'.channels[scid]? = g₂'.channels[scid]? := by
  rw [handleAll_updates h₁, handleAll_updates h₂, hsame]
  congr 1
  funext chan
  apply hperm.foldl_eq'
  intro a ha b hb chan
  unfold ChannelInfo.receiveAt
  by_cases hA : a.contents.shortChannelId = scid
  · by_cases hB : b.contents.shortChannelId = scid
    · simp only [hA, hB, if_true]
      exact receive_comm (htimestamps a ha b hb (hA.trans hB.symm))
    · simp only [hA, hB, if_true, if_false]
  · by_cases hB : b.contents.shortChannelId = scid
    · simp only [hA, hB, if_true, if_false]
    · simp only [hA, hB, if_false]

/-- At other times, in the other order, and with one in between that is too old. -/
theorem updates_in_any_order_of_two :
    ∃ g g₁ g₂ : NetworkGraph UInt8, new.handleAll byteSecp none (twoNodes.take 1) = some g ∧
      g.handleAll byteSecp none (updateEvents
        [(2000000, updateByOne 1999998 10), (2000100, updateByOne 1999999 20)]) = some g₁ ∧
      g.handleAll byteSecp none (updateEvents
        [(2000300, updateByOne 1999999 20), (2000400, updateByOne 100 30),
          (2000500, updateByOne 1999998 10)]) = some g₂ ∧
      ∀ scid : Nat, g₁.channels[scid]? = g₂.channels[scid]? := by
  obtain ⟨g, hg, hlinked⟩ := linked_new.handleAll_isSome byteSecp none
    (by simp [twoNodes, GossipEvent.ClockSet] : ∀ event ∈ twoNodes.take 1, event.ClockSet)
  have hclock : ∀ received : List (Nat × ChannelUpdate), (∀ update ∈ received,
      2000000 ≤ update.1) → ∀ event ∈ (updateEvents received : List (GossipEvent UInt8)),
      event.ClockSet := by
    intro received htime event hmem
    obtain ⟨update, hupdate, rfl⟩ := List.mem_map.mp hmem
    have hset : staleChannelUpdateAgeLimitSecs ≤ 2000000 := by decide
    exact hset.trans (htime update hupdate)
  obtain ⟨g₁, hg₁, -⟩ := hlinked.handleAll_isSome byteSecp none (hclock
    [(2000000, updateByOne 1999998 10), (2000100, updateByOne 1999999 20)] (by simp))
  obtain ⟨g₂, hg₂, -⟩ := hlinked.handleAll_isSome byteSecp none (hclock
    [(2000300, updateByOne 1999999 20), (2000400, updateByOne 100 30),
      (2000500, updateByOne 1999998 10)] (by simp))
  exact ⟨g, g₁, g₂, hg, hg₁, hg₂,
    updates_in_any_order (fun _ => rfl) (by decide) (by decide) hg₁ hg₂⟩

end NetworkGraph

end Gossip
end HiddenLightning
