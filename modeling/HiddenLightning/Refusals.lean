import HiddenLightning.UpdateFiles

/-! # Restarting after a refused update

`update_monitor` changes the monitor even when it returns `Err`, and
`ChainMonitor::update_channel` persists the update all the same; the node goes on.
The replay loop of startup meets the same `Err` on the same update and returns from
`start_ldk`.  So a channel's node can restart exactly when none of its updates since
the last block batch was refused (`restart_goes_on_iff`).

The history since the snapshot is not stored in full: every post-close update
replaces the previous one.  `Follows` says what is left of it: replaying the stored
updates refuses one exactly when one was refused at run time, because a post-close
update is refused exactly when the funding spend was seen, which no update changes.
-/
namespace HiddenLightning
open Numerals FileStore LogReplay

variable {M : MonitorImpl}

theorem toNat_le_closedChannelUpdateId (i : UInt64) : i.toNat ≤ closedChannelUpdateId.toNat :=
  Nat.le_of_lt_succ i.toNat_lt

/-- Applying a post-close update again, to any monitor of the same channel. -/
theorem updateMonitor_closed {u : ChannelMonitorUpdate M} {m m' : ChannelMonitor M} {ok : Bool}
    (hu : u.updateId = closedChannelUpdateId) (h : updateMonitor u m = .returned ok m')
    (m₁ : ChannelMonitor M) : ∃ m₁', updateMonitor u m₁ = .returned (!m₁.fundingSpendSeen) m₁' := by
  obtain ⟨-, ⟨-, -, p, hp, -⟩ | ⟨hne, -⟩⟩ := updateMonitor_returned h
  · refine ⟨{ m₁ with latestUpdateId := u.updateId, state := M.providePaymentPreimage p m₁.state }, ?_⟩
    rw [updateMonitor, if_pos (by rw [applicable, if_pos hu, hp]), hp]
    rfl
  · exact absurd hu hne

/-- **What is stored of a channel's history**: `us`, by increasing number; replaying it
from the snapshot complains exactly when `ok` is `false`, and ends in the monitor in memory
or, after the channel was closed, in one that has seen the same funding spend. -/
structure Follows (s : Store M) (o : OutPoint) (m m₀ : ChannelMonitor M)
    (us : List (ChannelMonitorUpdate M)) (ok : Bool) : Prop where
  snap : s.snap o = some m₀
  numbered : Numbered s o us m.latestUpdateId
  advance : ∃ m₁, advance updateMonitor us m₀ = some (m₁, ok) ∧
    m₁.fundingSpendSeen = m.fundingSpendSeen ∧
    (m₁ = m ∨ m.latestUpdateId = closedChannelUpdateId)

namespace Follows
variable {s : Store M} {o : OutPoint} {m m' m₀ : ChannelMonitor M}
  {us : List (ChannelMonitorUpdate M)} {ok ok' : Bool} {u : ChannelMonitorUpdate M}

theorem of_snap (h : s.snap o = some m) (hupd : ∀ i, s.upd o i = none) :
    Follows s o m m [] true :=
  ⟨h, Numbered.nil hupd, m, rfl, rfl, Or.inl rfl⟩

/-- An update whose number is above all stored ones is added at the end. -/
theorem log_new (h : Follows s o m m₀ us ok) (hum : updateMonitor u m = .returned ok' m')
    (hnew : ∀ v ∈ us, v.updateId.toNat < u.updateId.toNat) :
    Follows (s.log o u) o m' m₀ (us ++ [u]) (ok && ok') := by
  obtain ⟨⟨hlatest, -, hspend, -⟩, hkind⟩ := updateMonitor_returned hum
  refine ⟨h.snap, by rw [hlatest]; exact h.numbered.log hnew, ?_⟩
  obtain ⟨m₁, hadv, hsame, rfl | hclosed⟩ := h.advance
  · exact ⟨m', advance_snoc hadv hum, rfl, Or.inl rfl⟩
  · -- in memory the channel is closed already, so this is a post-close update
    rcases hkind with ⟨hu, hok, -⟩ | ⟨-, hnext⟩
    · obtain ⟨m₁', hum₁⟩ := updateMonitor_closed hu hum m₁
      refine ⟨m₁', ?_, ?_, Or.inr (by rw [hlatest, hu])⟩
      · rw [hok, ← hsame]
        exact advance_snoc hadv hum₁
      · rw [(updateMonitor_returned hum₁).1.2.2.1, hspend, hsame]
    · rw [hclosed] at hnext
      have := toNat_le_closedChannelUpdateId u.updateId
      omega

/-- A post-close update takes the place of the last one stored. -/
theorem log_again {v : ChannelMonitorUpdate M} (h : Follows s o m m₀ (us ++ [v]) ok)
    (hv : v.updateId = closedChannelUpdateId) (hu : u.updateId = closedChannelUpdateId)
    (hum : updateMonitor u m = .returned ok' m') :
    Follows (s.log o u) o m' m₀ (us ++ [u]) (ok && ok') := by
  obtain ⟨⟨hlatest, -, hspend, -⟩, ⟨-, hok', -⟩ | ⟨hne, -⟩⟩ := updateMonitor_returned hum
  · obtain ⟨m₁, hadv, hsame, -⟩ := h.advance
    obtain ⟨m₂, ok₂, okv, hadv₂, hv₂, rfl⟩ := of_advance_snoc hadv
    obtain ⟨⟨-, -, hspend₁, -⟩, ⟨-, rfl, -⟩ | ⟨hne, -⟩⟩ := updateMonitor_returned hv₂
    · obtain ⟨m₂', hum₂⟩ := updateMonitor_closed hu hum m₂
      refine ⟨h.snap, ?_, m₂', ?_, ?_, Or.inr (by rw [hlatest, hu])⟩
      · rw [hlatest]
        exact h.numbered.log_last (hu.trans hv.symm)
      · rw [hok', ← hsame, hspend₁, Bool.and_assoc, Bool.and_self]
        exact advance_snoc hadv₂ hum₂
      · rw [(updateMonitor_returned hum₂).1.2.2.1, hspend, ← hsame, hspend₁]
    · exact absurd hv hne
  · exact absurd hu hne

/-- **Every update that returns, refused or not, is followed.** -/
theorem log (h : Follows s o m m₀ us ok) (hum : updateMonitor u m = .returned ok' m') :
    ∃ us', Follows (s.log o u) o m' m₀ us' (ok && ok') := by
  obtain ⟨-, ⟨hu, -⟩ | ⟨-, hnext⟩⟩ := updateMonitor_returned hum
  · have hmax := fun w : ChannelMonitorUpdate M => toNat_le_closedChannelUpdateId w.updateId
    rcases us.eq_nil_or_concat' with rfl | ⟨us, v, rfl⟩
    · exact ⟨_, h.log_new hum (by simp)⟩
    · by_cases hv : v.updateId = closedChannelUpdateId
      · exact ⟨_, h.log_again hv hu hum⟩
      · refine ⟨_, h.log_new hum fun w hw => ?_⟩
        have hlast : v.updateId.toNat < closedChannelUpdateId.toNat :=
          Nat.lt_of_le_of_ne (hmax v) fun he => hv (UInt64.toNat_inj.mp he)
        rw [hu]
        rcases List.mem_append.mp hw with hw | hw
        · have := (List.pairwise_append.mp h.numbered.ascending).2.2 w hw v List.mem_cons_self
          omega
        · rw [List.mem_singleton.mp hw]
          exact hlast
  · refine ⟨_, h.log_new hum fun v hv => ?_⟩
    have := h.numbered.bound v hv
    omega

end Follows

/-! ## Runs of one channel -/

/-- What happens to a channel: a block batch, or an update its monitor accepts or
refuses. -/
inductive Event where
  | block
  | accepted
  | refused
deriving DecidableEq

/-- What `update_channel` returned, as an event. -/
def Event.ofResult : Except ChannelMonitorUpdateErr Unit → Event
  | .ok _ => .accepted
  | .error _ => .refused

/-- Whether an update was refused since the last block batch. -/
def refusedSince (es : List Event) : Bool :=
  es.foldl (fun b e => match e with
    | .block => false
    | .accepted => b
    | .refused => true) false

variable (S : Serial M)

/-- A run of channel `o`: updates with any result, and block batches. -/
inductive History (o : OutPoint) : Node M → List Event → Node M → Prop
  | nil (n : Node M) : History o n [] n
  | update {n₀ n n' : Node M} {es : List Event} {order : List Text} {u : ChannelMonitorUpdate M}
      {r : Except ChannelMonitorUpdateErr Unit} (h : History o n₀ es n)
      (hu : updateChannel S order o u n = some (n', r)) :
      History o n₀ (es ++ [Event.ofResult r]) n'
  | block {n₀ n n' : Node M} {es : List Event} {order : List Text} {block : BlockEffect M}
      (h : History o n₀ es n) (hb : processChainData S block [(o, order)] n = some n') :
      History o n₀ (es ++ [.block]) n'

/-- A node of one channel, whose files follow its monitor. -/
structure Followed (o : OutPoint) (n : Node M) (ok : Bool) : Prop where
  stored : ∃ s m m₀ us, Stores S n.disk s ∧ n.monitors o = some m ∧ m.fundingTxo = o ∧
    Follows s o m m₀ us ok ∧ s.Only o

variable {S}

theorem Followed.update {o : OutPoint} {n n' : Node M} {ok : Bool} (h : Followed S o n ok)
    {order : List Text} {u : ChannelMonitorUpdate M} {r : Except ChannelMonitorUpdateErr Unit}
    (hu : updateChannel S order o u n = some (n', r)) :
    Followed S o n' (ok && decide (Event.ofResult r = .accepted)) := by
  obtain ⟨s, m, m₀, us, hs, hm, hid, hf, honly⟩ := h.stored
  obtain ⟨hnone, -⟩ | ⟨m₁, ok', m', disk, hm₁, hum, hrun, rfl, rfl⟩ := updateChannel_cases hu
  · rw [hm] at hnone
    cases hnone
  cases hm.symm.trans hm₁
  obtain ⟨us', hf'⟩ := hf.log hum
  have hr : decide (Event.ofResult
      (if ok' then .ok () else .error .permanentFailure) = .accepted) = ok' := by
    cases ok' <;> rfl
  rw [hr]
  refine ⟨s.log o u, m', m₀, us', hs.call_update hrun, ?_, ?_, hf', honly.log u⟩
  · rw [Node.insert_monitors, if_pos rfl]
  · rw [(updateMonitor_returned hum).1.2.1, hid]

theorem Followed.block {o : OutPoint} {n n' : Node M} {ok : Bool} (h : Followed S o n ok)
    {order : List Text} {block : BlockEffect M}
    (hb : processChainData S block [(o, order)] n = some n') : Followed S o n' true := by
  obtain ⟨s, m, m₀, us, hs, hm, hid, -, honly⟩ := h.stored
  obtain ⟨m₁, hm₁, hb⟩ := Option.bind_eq_some_iff.mp hb
  cases hm.symm.trans hm₁
  obtain ⟨disk, hrun, hb⟩ := Option.bind_eq_some_iff.mp hb
  cases hb
  have hid' : (block.process m).fundingTxo = o := by rw [block.fundingTxo_process, hid]
  have hsnap : (s.save (block.process m)).snap o = some (block.process m) := by
    rw [Store.save_snap, if_pos hid'.symm]
  refine ⟨s.save (block.process m), block.process m, block.process m, [], ?_, ?_, hid',
    Follows.of_snap hsnap fun _ => rfl, honly.save hid'⟩
  · exact hs.call (c := .updatePersistedChannel o none (block.process m)) hid' ⟨order, hrun⟩
  · rw [Node.insert_monitors, if_pos rfl]

theorem refusedSince_snoc (es : List Event) (e : Event) : refusedSince (es ++ [e]) =
    match e with
    | .block => false
    | .accepted => refusedSince es
    | .refused => true := by
  rw [refusedSince, List.foldl_append]
  rfl

/-- **A run keeps the files following the monitor**, and the flag counts refusals. -/
theorem History.followed {o : OutPoint} {n₀ n : Node M} {es : List Event} (h : History S o n₀ es n)
    (h₀ : Followed S o n₀ true) : Followed S o n (!refusedSince es) := by
  induction h with
  | nil => exact h₀
  | @update n n' es order u r _ hu ih =>
    have := ih.update hu
    rw [refusedSince_snoc]
    cases r with
    | ok => simpa [Event.ofResult] using this
    | error => simpa [Event.ofResult] using this
  | block _ hb ih =>
    rw [refusedSince_snoc]
    exact ih.block hb

/-- A node with one channel, its monitor stored and `updates/` empty. -/
theorem Fresh.followed {n : Node M} (h : Fresh S n) {o : OutPoint}
    (hone : ∀ o', (n.monitors o').isSome ↔ o' = o) : Followed S o n true := by
  obtain ⟨s, hs, hsnap, hupd⟩ := h.stored
  obtain ⟨m, hm⟩ := Option.isSome_iff_exists.mp ((hone o).mpr rfl)
  refine ⟨s, m, m, [], hs, hm, h.owned o m hm, Follows.of_snap (by rw [hsnap, hm]) (hupd o),
    fun o' ho' => ⟨?_, hupd o'⟩⟩
  rw [hsnap]
  cases hm' : n.monitors o' with
  | none => rfl
  | some m' => exact absurd ((hone o').mp (by rw [hm']; rfl)) ho'

/-- **Step 7 on a followed channel**: it goes through if no stored update is refused, and
returns early otherwise. -/
theorem Followed.restart {o : OutPoint} {n : Node M} {ok : Bool} (h : Followed S o n ok)
    {lm lu : Option (List DirEntry)} (hlm : Listing (n.disk .monitors) lm)
    (hlu : Listing (n.disk .updates) lu) :
    ∃ m₀ m₁ map, readChannelmonitors S lm = .ok [m₀] ∧ m₀.fundingTxo = o ∧
      readChannelmonitorUpdates S lu = .ok map ∧
      updatesFor map m₀ = sortUpdates (storedUpdates S o lu) ∧
      replayMonitors map [m₀] = if ok then .done [m₁] else .stopped := by
  obtain ⟨s, m, m₀, us, hs, -, -, hf, honly⟩ := h.stored
  obtain ⟨m₁, hadv, -⟩ := hf.advance
  obtain ⟨map, hms, hmap, -, hus⟩ := honly.step7 hs hlm hlu
  rw [hf.snap] at hms
  have hups : updatesFor map m₀ = us := hus m₀ us _ hf.snap hf.numbered
  refine ⟨m₀, m₁, map, hms, s.snap_fundingTxo hf.snap, hmap, ?_, ?_⟩
  · have hown := ownInOrder_sortUpdates hs hlu o
    refine hus m₀ _ closedChannelUpdateId hf.snap ⟨hown.ascending, fun u => ?_, fun u _ => ?_⟩
    · rw [hown.mem_iff, mem_storedUpdates hs hlu]
    · exact toNat_le_closedChannelUpdateId _
  · rw [replayMonitors, replayUpdates, hups, replay_of_advance hadv]
    cases ok <;> rfl

/-- **The node can restart from what it wrote exactly when no update was refused since the
last block batch.**  Then startup applies every stored update and goes on to step 8. -/
theorem restart_goes_on_iff {n₀ n : Node M} (h₀ : Fresh S n₀) {o : OutPoint}
    (hone : ∀ o', (n₀.monitors o').isSome ↔ o' = o) {es : List Event}
    (hrun : History S o n₀ es n) {lm lu : Option (List DirEntry)}
    (hlm : Listing (n.disk .monitors) lm) (hlu : Listing (n.disk .updates) lu) :
    (∃ ms map ms', readChannelmonitors S lm = .ok ms ∧ readChannelmonitorUpdates S lu = .ok map ∧
      callsOn map ms o = sortUpdates (storedUpdates S o lu) ∧
      readChannelMonitorState S lm lu = .done ms') ↔ refusedSince es = false := by
  obtain ⟨m₀, m₁, map, hms, ho, hmap, hus, hreplay⟩ :=
    (hrun.followed (h₀.followed hone)).restart hlm hlu
  have hstate : readChannelMonitorState S lm lu = replayMonitors map [m₀] := by
    rw [readChannelMonitorState, hms, hmap]
  rw [hstate, hreplay]
  cases hes : refusedSince es with
  | false =>
    rw [hes] at hreplay
    have hnodup : ([m₀].map ChannelMonitor.fundingTxo).Nodup := List.nodup_singleton _
    have hcalls := callsOn_of_done hnodup hreplay List.mem_cons_self
    exact ⟨fun _ => rfl, fun _ => ⟨[m₀], map, [m₁], hms, hmap, by rw [← ho, hcalls, hus, ho], rfl⟩⟩
  | true =>
    refine ⟨?_, fun hc => by cases hc⟩
    rintro ⟨_, _, _, -, -, -, hc⟩
    cases hc

/-! ## A channel whose funding output is spent -/

/-- The block in which the funding output is spent. -/
def spendFunding : BlockEffect M where
  process m := { m with fundingSpendSeen := true }
  fundingTxo_process _ := rfl

theorem isSome_insert_empty {o : OutPoint} {m : ChannelMonitor M} {disk : PersistDisk}
    (o' : OutPoint) : ((Node.empty.insert o m disk).monitors o').isSome ↔ o' = o := by
  rw [Node.insert_monitors]
  split
  · exact iff_of_true rfl ‹_›
  · exact iff_of_false Bool.false_ne_true ‹_›

/-- A channel that accepts its first update can restart. -/
theorem restart_goes_on_after_preimage : ∃ (n₀ n : Node preimageKeeper)
    (lm lu : Option (List DirEntry)) (ms : List (ChannelMonitor preimageKeeper)),
    History preimageSerial ⟨.ofByte 1, 0⟩ n₀ [.accepted] n ∧
      Listing (n.disk .monitors) lm ∧ Listing (n.disk .updates) lu ∧
      readChannelMonitorState preimageSerial lm lu = .done ms := by
  generalize (⟨.ofByte 1, 0⟩ : OutPoint) = o
  obtain ⟨disk₀, hfresh⟩ := exists_fresh (S := preimageSerial) (m := openedMonitor o) rfl
  have hup := updateMonitor_preimageUpdate 1 7 (m := openedMonitor o) (Or.inr rfl)
  obtain ⟨order, disk, hu⟩ := exists_updateChannel preimageSerial
    (Node.empty.insert o (openedMonitor o) disk₀) (Function.update_self ..) hup
  have hrun := (History.nil (S := preimageSerial) (o := o) _).update hu
  obtain ⟨lm, hlm⟩ := exists_listing (disk .monitors)
  obtain ⟨lu, hlu⟩ := exists_listing (disk .updates)
  obtain ⟨_, _, ms, -, -, -, hdone⟩ :=
    (restart_goes_on_iff hfresh isSome_insert_empty hrun hlm hlu).mpr rfl
  exact ⟨_, _, lm, lu, ms, hrun, hlm, hlu, hdone⟩

/-- A block spends the funding output, and the next update is refused; startup then returns
early. -/
theorem restart_stops_after_refusal : ∃ (n₀ n : Node preimageKeeper)
    (lm lu : Option (List DirEntry)),
    Fresh preimageSerial n₀ ∧ (∀ o', (n₀.monitors o').isSome ↔ o' = ⟨.ofByte 1, 0⟩) ∧
      History preimageSerial ⟨.ofByte 1, 0⟩ n₀ [.block, .refused] n ∧
      Listing (n.disk .monitors) lm ∧ Listing (n.disk .updates) lu ∧
      readChannelMonitorState preimageSerial lm lu = .stopped := by
  generalize (⟨.ofByte 1, 0⟩ : OutPoint) = o
  obtain ⟨disk₀, hfresh⟩ := exists_fresh (S := preimageSerial) (m := openedMonitor o) rfl
  obtain ⟨order₁, disk₁, hb⟩ := exists_processChainData preimageSerial
    (Node.empty.insert o (openedMonitor o) disk₀) spendFunding (Function.update_self ..)
  have hup := updateMonitor_preimageUpdate 1 7
    (m := spendFunding.process (openedMonitor o)) (Or.inr rfl)
  obtain ⟨order₂, disk₂, hu⟩ := exists_updateChannel preimageSerial
    ((Node.empty.insert o (openedMonitor o) disk₀).insert o _ disk₁) (Function.update_self ..) hup
  have hrun := ((History.nil (S := preimageSerial) (o := o) _).block (hb [])).update hu
  obtain ⟨lm, hlm⟩ := exists_listing (disk₂ .monitors)
  obtain ⟨lu, hlu⟩ := exists_listing (disk₂ .updates)
  obtain ⟨m₀, m₁, map, hms, -, hmap, -, hreplay⟩ :=
    (hrun.followed (hfresh.followed isSome_insert_empty)).restart hlm hlu
  refine ⟨_, _, lm, lu, hfresh, isSome_insert_empty, hrun, hlm, hlu, ?_⟩
  rw [readChannelMonitorState, hms, hmap]
  exact hreplay

end HiddenLightning
