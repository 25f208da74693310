import HiddenLightning.Startup

/-! # The running node and its disk

`ChainMonitor` (`chainmonitor.rs`) holds the monitors in memory and calls the
persister for each change: `updateChannel` applies an update and persists it
whatever `update_monitor` returned, `processChainData` lets every monitor see a
block and persists all of them in full, `watchChannel` adds a monitor.  The
program creates it without a chain source, so a block is processed in one pass.

A `Tracks` fact ties one channel's memory to the store: the snapshot, followed by
the stored updates in order, is the monitor in memory.  It survives updates
because each new number is above the stored ones, and a block because it saves
every monitor; and it is all that replay needs (`Tracks.replayUpdates_eq`).  Hence
`restart_rebuilds_memory`: between any two steps of a run, startup rebuilds
exactly the monitors in memory.
-/
namespace HiddenLightning
open Numerals FileStore LogReplay

/-! ## The node -/

/-- The monitors in memory and the persister's directories. -/
structure Node (M : MonitorImpl) where
  monitors : OutPoint → Option (ChannelMonitor M)
  disk : PersistDisk

/-- `ChannelMonitorUpdateErr`. -/
inductive ChannelMonitorUpdateErr where
  | temporaryFailure
  | permanentFailure
deriving DecidableEq

variable {M : MonitorImpl} (S : Serial M)

/-- The node with channel `id`'s monitor replaced. -/
def Node.insert (n : Node M) (id : OutPoint) (m : ChannelMonitor M) (disk : PersistDisk) : Node M :=
  ⟨Function.update n.monitors id (some m), disk⟩

@[simp] theorem Node.insert_disk (n : Node M) (id : OutPoint) (m : ChannelMonitor M)
    (disk : PersistDisk) : (n.insert id m disk).disk = disk := rfl

theorem Node.insert_monitors (n : Node M) (id : OutPoint) (m : ChannelMonitor M)
    (disk : PersistDisk) (o : OutPoint) :
    (n.insert id m disk).monitors o = if o = id then some m else n.monitors o :=
  Function.update_apply ..

/-- What a block does to a monitor.  The block handlers never assign the funding
output; everything else may change. -/
structure BlockEffect (M : MonitorImpl) where
  process : ChannelMonitor M → ChannelMonitor M
  fundingTxo_process : ∀ m, (process m).fundingTxo = m.fundingTxo

/-- `ChainMonitor::update_channel`; `none` when the process panics or the disk
fails. -/
def updateChannel (order : List Text) (id : OutPoint) (u : ChannelMonitorUpdate M) (n : Node M) :
    Option (Node M × Except ChannelMonitorUpdateErr Unit) :=
  match n.monitors id with
  | none => some (n, .error .permanentFailure)
  | some m =>
    match updateMonitor u m with
    | .panicked => none
    | .returned ok m' =>
      -- persisted despite an error: the monitor has changed anyway
      (run (updatePersistedChannel S order id (some u) m') n.disk).map fun disk =>
        (n.insert id m' disk, if ok then .ok () else .error .permanentFailure)

/-- `ChainMonitor::process_chain_data`: each monitor in turn sees the block and is
persisted.  A visit is a channel and the order in which the files of `updates/`
are removed for it. -/
def processChainData (block : BlockEffect M) :
    List (OutPoint × List Text) → Node M → Option (Node M)
  | [], n => some n
  | (id, order) :: visits, n =>
    (n.monitors id).bind fun m =>
      (run (updatePersistedChannel S order id none (block.process m)) n.disk).bind fun disk =>
        processChainData block visits (n.insert id (block.process m) disk)

/-- `ChainMonitor::watch_channel`. -/
def watchChannel (order : List Text) (fundingOutpoint : OutPoint) (monitor : ChannelMonitor M)
    (n : Node M) : Option (Node M × Except ChannelMonitorUpdateErr Unit) :=
  if (n.monitors fundingOutpoint).isSome then some (n, .error .permanentFailure)
  else (run (persistNewChannel S order fundingOutpoint monitor) n.disk).map fun disk =>
    (n.insert fundingOutpoint monitor disk, .ok ())

variable {S}

/-- **Everything a returning `update_channel` can have been**: a call for an unknown
channel, or an update applied to the channel's monitor and persisted. -/
theorem updateChannel_cases {order : List Text} {id : OutPoint} {u : ChannelMonitorUpdate M}
    {n n' : Node M} {r : Except ChannelMonitorUpdateErr Unit}
    (h : updateChannel S order id u n = some (n', r)) :
    (n.monitors id = none ∧ n' = n ∧ r = .error .permanentFailure) ∨
    ∃ m ok m' disk, n.monitors id = some m ∧ updateMonitor u m = .returned ok m' ∧
      (PersistCall.updatePersistedChannel id (some u) m').Completes S n.disk disk ∧
      n' = n.insert id m' disk ∧ r = if ok then .ok () else .error .permanentFailure := by
  rw [updateChannel] at h
  cases hm : n.monitors id with
  | none =>
    rw [hm] at h
    cases h
    exact Or.inl ⟨rfl, rfl, rfl⟩
  | some m =>
    rw [hm] at h
    dsimp only at h
    split at h
    · cases h
    · rename_i ok m' hum
      obtain ⟨disk, hrun, heq⟩ := Option.map_eq_some_iff.mp h
      cases heq
      exact Or.inr ⟨m, ok, m', disk, rfl, hum, ⟨order, hrun⟩, rfl, rfl⟩

/-- Monitors are kept under their own funding output. -/
def Node.Owned (n : Node M) : Prop := ∀ o m, n.monitors o = some m → m.fundingTxo = o

theorem Node.Owned.insert {n : Node M} (h : n.Owned) {id : OutPoint} {m : ChannelMonitor M}
    (hm : m.fundingTxo = id) (disk : PersistDisk) : (n.insert id m disk).Owned := by
  intro o m' ho
  rw [Node.insert_monitors] at ho
  split at ho
  · rename_i hid
    cases ho
    rw [hid, hm]
  · exact h o m' ho

/-! ## One channel's memory and its files -/

/-- `us` are the updates stored for channel `o`, by increasing number, none above
`latest`. -/
structure Numbered (s : Store M) (o : OutPoint) (us : List (ChannelMonitorUpdate M))
    (latest : UInt64) : Prop where
  ascending : us.Pairwise fun a b => a.updateId.toNat < b.updateId.toNat
  mem_iff : ∀ u, u ∈ us ↔ s.upd o u.updateId = some u
  bound : ∀ u ∈ us, u.updateId.toNat ≤ latest.toNat

namespace Numbered
variable {s : Store M} {o : OutPoint} {us : List (ChannelMonitorUpdate M)} {latest : UInt64}

theorem nil (h : ∀ i, s.upd o i = none) : Numbered s o [] latest where
  ascending := List.Pairwise.nil
  mem_iff u := by simp [h]
  bound u hu := by cases hu

/-- An update with a new number goes to the end. -/
theorem log (h : Numbered s o us latest) {u : ChannelMonitorUpdate M}
    (hnew : ∀ v ∈ us, v.updateId.toNat < u.updateId.toNat) :
    Numbered (s.log o u) o (us ++ [u]) u.updateId where
  ascending := by
    refine List.pairwise_append.mpr ⟨h.ascending, List.pairwise_singleton _ _, fun v hv w hw => ?_⟩
    rw [List.mem_singleton.mp hw]
    exact hnew v hv
  mem_iff v := by
    rw [List.mem_append, List.mem_singleton, h.mem_iff, Store.log_upd]
    by_cases hid : v.updateId = u.updateId
    · -- the number is new, so the only stored update that carries it is `u`
      have hnot : s.upd o v.updateId ≠ some v := by
        intro hv
        have := hnew v ((h.mem_iff v).mpr hv)
        rw [hid] at this
        exact Nat.lt_irrefl _ this
      rw [if_pos ⟨rfl, hid⟩, Option.some.injEq]
      exact ⟨fun hv => hv.elim (fun hv => absurd hv hnot) Eq.symm, fun hv => Or.inr hv.symm⟩
    · rw [if_neg fun hc => hid hc.2]
      exact ⟨fun hv => hv.elim (fun hv => hv) fun hv => absurd (congrArg _ hv) hid, Or.inl⟩
  bound v hv := by
    rcases List.mem_append.mp hv with hv | hv
    · exact Nat.le_of_lt (hnew v hv)
    · rw [List.mem_singleton.mp hv]

/-- An update with the last number takes the last one's place. -/
theorem log_last {v : ChannelMonitorUpdate M} (h : Numbered s o (us ++ [v]) latest)
    {u : ChannelMonitorUpdate M} (hid : u.updateId = v.updateId) :
    Numbered (s.log o u) o (us ++ [u]) u.updateId := by
  obtain ⟨hasc, -, hlast⟩ := List.pairwise_append.mp h.ascending
  have hbelow : ∀ w ∈ us, w.updateId.toNat < u.updateId.toNat := fun w hw => by
    rw [hid]
    exact hlast w hw v List.mem_cons_self
  refine ⟨List.pairwise_append.mpr ⟨hasc, List.pairwise_singleton _ _, fun w hw x hx => ?_⟩,
    fun w => ?_, fun w hw => ?_⟩
  · rw [List.mem_singleton.mp hx]
    exact hbelow w hw
  · have hw := h.mem_iff w
    rw [List.mem_append, List.mem_singleton] at hw
    rw [List.mem_append, List.mem_singleton, Store.log_upd]
    by_cases hwid : w.updateId = u.updateId
    · have hnot : w ∉ us := fun hmem => Nat.lt_irrefl _ (hwid ▸ hbelow w hmem)
      rw [if_pos ⟨rfl, hwid⟩, Option.some.injEq]
      exact ⟨fun hc => hc.elim (fun hc => absurd hc hnot) Eq.symm, fun hc => Or.inr hc.symm⟩
    · rw [if_neg fun hc => hwid hc.2, ← hw]
      have hne : w ≠ v := fun he => hwid (by rw [he, hid])
      have hne' : w ≠ u := fun he => hwid (by rw [he])
      simp only [hne, hne', or_false]
  · rcases List.mem_append.mp hw with hw | hw
    · exact Nat.le_of_lt (hbelow w hw)
    · rw [List.mem_singleton.mp hw]

/-- Another channel's update does not matter. -/
theorem log_other (h : Numbered s o us latest) {id : OutPoint} (hne : o ≠ id)
    (u : ChannelMonitorUpdate M) : Numbered (s.log id u) o us latest where
  ascending := h.ascending
  mem_iff v := by rw [h.mem_iff, Store.log_upd, if_neg fun hc => hne hc.1]
  bound := h.bound

end Numbered

/-- **The files of a channel account for its monitor**: applying the stored
updates to the snapshot, in order, gives the monitor and no complaint. -/
structure Tracks (s : Store M) (o : OutPoint) (m m₀ : ChannelMonitor M)
    (us : List (ChannelMonitorUpdate M)) : Prop where
  snap : s.snap o = some m₀
  numbered : Numbered s o us m.latestUpdateId
  advance : advance updateMonitor us m₀ = some (m, true)

/-- A snapshot alone accounts for itself. -/
theorem Tracks.of_snap {s : Store M} {o : OutPoint} {m : ChannelMonitor M} (h : s.snap o = some m)
    (hupd : ∀ i, s.upd o i = none) : Tracks s o m m [] :=
  ⟨h, Numbered.nil hupd, rfl⟩

/-- An accepted update extends the account. -/
theorem Tracks.log {s : Store M} {o : OutPoint} {m m' m₀ : ChannelMonitor M}
    {us : List (ChannelMonitorUpdate M)} (h : Tracks s o m m₀ us) {u : ChannelMonitorUpdate M}
    (hu : u.updateId ≠ closedChannelUpdateId) (hm : updateMonitor u m = .returned true m') :
    Tracks (s.log o u) o m' m₀ (us ++ [u]) := by
  obtain ⟨⟨hlatest, -⟩, ⟨hclosed, -⟩ | ⟨-, hnext⟩⟩ := updateMonitor_returned hm
  · exact absurd hclosed hu
  refine ⟨h.snap, ?_, by simpa using advance_snoc h.advance hm⟩
  rw [hlatest]
  refine h.numbered.log fun v hv => ?_
  have := h.numbered.bound v hv
  omega

/-- Another channel's update does not matter. -/
theorem Tracks.log_other {s : Store M} {o id : OutPoint} {m m₀ : ChannelMonitor M}
    {us : List (ChannelMonitorUpdate M)} (h : Tracks s o m m₀ us) (hne : o ≠ id)
    (u : ChannelMonitorUpdate M) : Tracks (s.log id u) o m m₀ us :=
  ⟨h.snap, h.numbered.log_other hne u, h.advance⟩

/-- The updates the loop takes for a channel whose txid no other stored update
carries: the channel's own, by number. -/
theorem updatesFor_eq {s : Store M} {es : List (OutPoint × ChannelMonitorUpdate M)}
    (hes : Updates s es) {m : ChannelMonitor M}
    (halone : ∀ e ∈ es, e.1.txid = m.fundingTxo.txid → e.1 = m.fundingTxo)
    {us : List (ChannelMonitorUpdate M)} {latest : UInt64}
    (hus : Numbered s m.fundingTxo us latest) :
    updatesFor (es.foldl pushUpdate fun _ => none) m = us := by
  rw [updatesFor_foldl]
  refine sortBy_eq_of_perm ?_ hus.ascending
  have hnodup : ((es.filter fun e => e.1.txid = m.fundingTxo.txid).map Prod.snd).Nodup := by
    refine List.Nodup.of_map ChannelMonitorUpdate.updateId ?_
    rw [List.map_map]
    refine List.Nodup.map_on ?_ (List.Nodup.filter _ (List.Nodup.of_map _ hes.nodup))
    intro e he e' he' hid
    rw [List.mem_filter] at he he'
    have ho : e.1 = e'.1 := (halone e he.1 (of_decide_eq_true he.2)).trans
      (halone e' he'.1 (of_decide_eq_true he'.2)).symm
    exact List.inj_on_of_nodup_map hes.nodup he.1 he'.1 (Prod.ext ho hid)
  refine (List.perm_ext_iff_of_nodup hnodup (hus.ascending.imp ?_)).mpr fun u => ?_
  · intro a b hab he
    rw [he] at hab
    exact Nat.lt_irrefl _ hab
  · rw [hus.mem_iff, List.mem_map]
    constructor
    · rintro ⟨e, he, rfl⟩
      rw [List.mem_filter] at he
      have ho := halone e he.1 (of_decide_eq_true he.2)
      rw [← ho]
      exact (hes.mem_iff e.1 e.2).mp he.1
    · intro hu
      exact ⟨(m.fundingTxo, u), List.mem_filter.mpr ⟨(hes.mem_iff _ u).mpr hu, by simp⟩, rfl⟩

/-- Nothing is stored for any channel but `o`. -/
def Store.Only (s : Store M) (o : OutPoint) : Prop :=
  ∀ o', o' ≠ o → s.snap o' = none ∧ ∀ i, s.upd o' i = none

/-- Step 7 on the files of a single channel. -/
theorem Store.Only.step7 {d : PersistDisk} {s : Store M} (hs : Stores S d s) {o : OutPoint}
    (honly : s.Only o) {lm lu : Option (List DirEntry)} (hlm : Listing (d .monitors) lm)
    (hlu : Listing (d .updates) lu) :
    ∃ map, readChannelmonitors S lm = .ok (s.snap o).toList ∧
      readChannelmonitorUpdates S lu = .ok map ∧
      readChannelMonitorState S lm lu = replayMonitors map (s.snap o).toList ∧
      ∀ m₀ us latest, s.snap o = some m₀ → Numbered s o us latest → updatesFor map m₀ = us := by
  obtain ⟨ms, es, hms, hes, hread, hmap, hstate⟩ := readChannelMonitorState_stores hs hlm hlu
  obtain rfl := hms.eq_toList fun o' ho' => (honly o' ho').1
  refine ⟨_, hread, hmap, hstate, fun m₀ us latest hsnap hus => ?_⟩
  obtain rfl := s.snap_fundingTxo hsnap
  refine updatesFor_eq hes (fun e he _ => ?_) hus
  by_contra hne
  have := (hes.mem_iff e.1 e.2).mp he
  rw [(honly e.1 hne).2] at this
  cases this

theorem Store.Only.log {s : Store M} {o : OutPoint} (h : s.Only o) (u : ChannelMonitorUpdate M) :
    (s.log o u).Only o := by
  intro o' ho'
  refine ⟨(h o' ho').1, fun i => ?_⟩
  rw [Store.log_upd, if_neg fun hc => ho' hc.1, (h o' ho').2]

theorem Store.Only.save {s : Store M} {o : OutPoint} (h : s.Only o) {m : ChannelMonitor M}
    (hm : m.fundingTxo = o) : (s.save m).Only o := by
  intro o' ho'
  refine ⟨?_, fun _ => rfl⟩
  rw [Store.save_snap, hm, if_neg ho', (h o' ho').1]

/-- **Replay rebuilds a tracked channel.** -/
theorem Tracks.replayUpdates_eq {s : Store M} {o : OutPoint} {m m₀ : ChannelMonitor M}
    {us : List (ChannelMonitorUpdate M)} (h : Tracks s o m m₀ us)
    {es : List (OutPoint × ChannelMonitorUpdate M)} (hes : Updates s es)
    (halone : ∀ e ∈ es, e.1.txid = o.txid → e.1 = o) :
    replayUpdates (es.foldl pushUpdate fun _ => none) m₀ = .done m := by
  have ho : m₀.fundingTxo = o := s.snap_fundingTxo h.snap
  have hus : updatesFor (es.foldl pushUpdate fun _ => none) m₀ = us :=
    updatesFor_eq hes (by rw [ho]; exact halone) (by rw [ho]; exact h.numbered)
  rw [replayUpdates, hus, replay_of_advance h.advance]
  rfl

/-! ## Runs -/

/-- The store accounts for every monitor in memory, and holds nothing else. -/
structure Accounts (n : Node M) (s : Store M) : Prop where
  absent : ∀ o, n.monitors o = none → s.snap o = none ∧ ∀ i, s.upd o i = none
  present : ∀ o m, n.monitors o = some m → ∃ m₀ us, Tracks s o m m₀ us

/-- No two channels share a funding transaction. -/
def Node.DistinctTxids (n : Node M) : Prop :=
  ∀ o o', (n.monitors o).isSome → (n.monitors o').isSome → o.txid = o'.txid → o = o'

/-- **An accepted update**: memory and files move together. -/
theorem Accounts.update {n n' : Node M} {s : Store M} (hs : Stores S n.disk s) (ha : Accounts n s)
    (hown : n.Owned) {order : List Text} {id : OutPoint} {u : ChannelMonitorUpdate M}
    (hu : u.updateId ≠ closedChannelUpdateId)
    (h : updateChannel S order id u n = some (n', .ok ())) :
    Stores S n'.disk (s.log id u) ∧ Accounts n' (s.log id u) ∧ n'.Owned ∧
      ∀ o, (n'.monitors o).isSome = (n.monitors o).isSome := by
  obtain ⟨-, -, hr⟩ | ⟨m, ok, m', disk, hm, hum, hrun, rfl, hr⟩ := updateChannel_cases h
  · cases hr
  cases ok with
  | false => cases hr
  | true =>
    have hid : m'.fundingTxo = id := by
      rw [(updateMonitor_returned hum).1.2.1, hown id m hm]
    refine ⟨hs.call_update hrun, ⟨fun o ho => ?_, fun o m₁ ho => ?_⟩, hown.insert hid disk,
      fun o => ?_⟩
    · rw [Node.insert_monitors] at ho
      split at ho
      · cases ho
      · rename_i hne
        obtain ⟨hsnap, hupd⟩ := ha.absent o ho
        refine ⟨hsnap, fun i => ?_⟩
        rw [Store.log_upd, if_neg fun hc => hne hc.1, hupd]
    · rw [Node.insert_monitors] at ho
      split at ho
      · rename_i heq
        cases ho
        subst heq
        obtain ⟨m₀, us, ht⟩ := ha.present o m hm
        exact ⟨m₀, us ++ [u], ht.log hu hum⟩
      · rename_i hne
        obtain ⟨m₀, us, ht⟩ := ha.present o m₁ ho
        exact ⟨m₀, us, ht.log_other hne u⟩
    · rw [Node.insert_monitors]
      split
      · rename_i heq
        rw [heq, hm]
        rfl
      · rfl

/-- What a pass over channels leaves behind: a snapshot of each channel visited,
and no update once one was. -/
theorem processChainData_stores {block : BlockEffect M} {visits : List (OutPoint × List Text)}
    {n n' : Node M} {s : Store M} (hs : Stores S n.disk s) (hown : n.Owned)
    (h : processChainData S block visits n = some n') :
    ∃ s', Stores S n'.disk s' ∧ n'.Owned ∧
      (∀ o, (n'.monitors o).isSome = (n.monitors o).isSome) ∧
      (∀ o ∈ visits.map Prod.fst, s'.snap o = n'.monitors o) ∧
      (∀ o, o ∉ visits.map Prod.fst → s'.snap o = s.snap o ∧ n'.monitors o = n.monitors o) ∧
      (∀ o i, s'.upd o i = if visits = [] then s.upd o i else none) := by
  induction visits generalizing n s with
  | nil =>
    cases h
    exact ⟨s, hs, hown, fun _ => rfl, by simp, fun _ _ => ⟨rfl, rfl⟩, fun _ _ => rfl⟩
  | cons visit visits ih =>
    obtain ⟨id, order⟩ := visit
    obtain ⟨m, hm, h⟩ := Option.bind_eq_some_iff.mp h
    obtain ⟨disk, hrun, h⟩ := Option.bind_eq_some_iff.mp h
    have hid : (block.process m).fundingTxo = id := by rw [block.fundingTxo_process, hown id m hm]
    have hs₁ : Stores S disk (s.save (block.process m)) :=
      hs.call (c := .updatePersistedChannel id none (block.process m)) hid ⟨order, hrun⟩
    obtain ⟨s', hs', hown', hsome, hvisited, hother, hupd⟩ := ih hs₁ (hown.insert hid disk) h
    have hsave : ∀ o, (s.save (block.process m)).snap o =
        if o = id then some (block.process m) else s.snap o := by
      intro o
      simp [Store.save, hid]
    refine ⟨s', hs', hown', fun o => ?_, fun o ho => ?_, fun o ho => ?_, fun o i => ?_⟩
    · rw [hsome, Node.insert_monitors]
      split
      · rename_i heq
        rw [heq, hm]
        rfl
      · rfl
    · by_cases hmem : o ∈ visits.map Prod.fst
      · exact hvisited o hmem
      · -- visited now and not again: memory and snapshot stay as this visit leaves them
        rcases List.mem_cons.mp ho with rfl | ho
        · obtain ⟨hsnap, hmon⟩ := hother _ hmem
          rw [hsnap, hmon, hsave, Node.insert_monitors, if_pos rfl, if_pos rfl]
        · exact absurd ho hmem
    · rw [List.map_cons, List.mem_cons, not_or] at ho
      obtain ⟨hsnap, hmon⟩ := hother o ho.2
      rw [hsnap, hmon, hsave, Node.insert_monitors, if_neg ho.1, if_neg ho.1]
      exact ⟨rfl, rfl⟩
    · rw [hupd, if_neg (List.cons_ne_nil _ _)]
      exact ite_self none

/-- **A block batch**: every monitor is saved, so the snapshots alone account for
memory. -/
theorem Accounts.block {n n' : Node M} {s : Store M} (hs : Stores S n.disk s) (ha : Accounts n s)
    (hown : n.Owned) {block : BlockEffect M} {visits : List (OutPoint × List Text)}
    (hall : ∀ o, o ∈ visits.map Prod.fst ↔ (n.monitors o).isSome)
    (h : processChainData S block visits n = some n') :
    ∃ s', Stores S n'.disk s' ∧ Accounts n' s' ∧ n'.Owned ∧
      ∀ o, (n'.monitors o).isSome = (n.monitors o).isSome := by
  obtain ⟨s', hs', hown', hsome, hvisited, hother, hupd⟩ := processChainData_stores hs hown h
  have hmem : ∀ o, o ∈ visits.map Prod.fst ↔ (n'.monitors o).isSome := fun o => by
    rw [hall, hsome]
  refine ⟨s', hs', ⟨fun o ho => ?_, fun o m ho => ?_⟩, hown', hsome⟩
  · have hnot : o ∉ visits.map Prod.fst := by rw [hmem, ho]; exact Bool.false_ne_true
    obtain ⟨hsnap, hmon⟩ := hother o hnot
    obtain ⟨hsnap₀, hupd₀⟩ := ha.absent o (hmon ▸ ho)
    refine ⟨hsnap.trans hsnap₀, fun i => ?_⟩
    rw [hupd, hupd₀, ite_self]
  · have hin : o ∈ visits.map Prod.fst := by rw [hmem, ho]; rfl
    have hne : visits ≠ [] := by
      rintro rfl
      cases hin
    exact ⟨m, [], Tracks.of_snap (by rw [hvisited o hin, ho]) fun i => by rw [hupd, if_neg hne]⟩

variable (S)

/-- One step of a run: an update accepted by its channel's monitor, or a block
batch over all channels in some order. -/
inductive Step : Node M → Node M → Prop
  | update {n n' : Node M} {order : List Text} {id : OutPoint} {u : ChannelMonitorUpdate M}
      (hu : u.updateId ≠ closedChannelUpdateId)
      (h : updateChannel S order id u n = some (n', .ok ())) : Step n n'
  | block {n n' : Node M} {block : BlockEffect M} {visits : List (OutPoint × List Text)}
      (hall : ∀ o, o ∈ visits.map Prod.fst ↔ (n.monitors o).isSome)
      (h : processChainData S block visits n = some n') : Step n n'

/-- A node whose channels have different funding transactions, each monitor in
`monitors/` and nothing in `updates/`. -/
structure Fresh (n : Node M) : Prop where
  owned : n.Owned
  distinctTxids : n.DistinctTxids
  stored : ∃ s, Stores S n.disk s ∧ s.snap = n.monitors ∧ ∀ o i, s.upd o i = none

/-- What every state of a run satisfies. -/
structure Synced (n : Node M) : Prop where
  owned : n.Owned
  distinctTxids : n.DistinctTxids
  accounted : ∃ s, Stores S n.disk s ∧ Accounts n s

variable {S}

theorem Fresh.synced {n : Node M} (h : Fresh S n) : Synced S n := by
  obtain ⟨s, hs, hsnap, hupd⟩ := h.stored
  refine ⟨h.owned, h.distinctTxids, s, hs, ⟨fun o ho => ?_, fun o m ho => ?_⟩⟩
  · exact ⟨by rw [hsnap, ho], hupd o⟩
  · exact ⟨m, [], Tracks.of_snap (by rw [hsnap, ho]) (hupd o)⟩

theorem Node.DistinctTxids.of_isSome {n n' : Node M} (h : n.DistinctTxids)
    (hsome : ∀ o, (n'.monitors o).isSome = (n.monitors o).isSome) : n'.DistinctTxids :=
  fun o o' ho ho' => h o o' (hsome o ▸ ho) (hsome o' ▸ ho')

theorem Synced.step {n n' : Node M} (h : Synced S n) (hstep : Step S n n') : Synced S n' := by
  obtain ⟨s, hs, ha⟩ := h.accounted
  cases hstep with
  | update hu hup =>
    obtain ⟨hs', ha', hown', hsome⟩ := Accounts.update hs ha h.owned hu hup
    exact ⟨hown', h.distinctTxids.of_isSome hsome, _, hs', ha'⟩
  | block hall hblock =>
    obtain ⟨s', hs', ha', hown', hsome⟩ := Accounts.block hs ha h.owned hall hblock
    exact ⟨hown', h.distinctTxids.of_isSome hsome, s', hs', ha'⟩

theorem Synced.run {n₀ n : Node M} (h₀ : Synced S n₀) (hrun : Relation.ReflTransGen (Step S) n₀ n) :
    Synced S n := by
  induction hrun with
  | refl => exact h₀
  | tail _ hstep ih => exact ih.step hstep

/-- The stored updates belong to channels in memory. -/
theorem Accounts.isSome_of_upd {n : Node M} {s : Store M} (ha : Accounts n s) {o : OutPoint}
    {i : UInt64} {u : ChannelMonitorUpdate M} (h : s.upd o i = some u) : (n.monitors o).isSome := by
  cases hm : n.monitors o with
  | none =>
    rw [(ha.absent o hm).2 i] at h
    cases h
  | some m => rfl

/-- Startup on the files of a synced node rebuilds its memory. -/
theorem Synced.restart {n : Node M} (h : Synced S n) {lm lu : Option (List DirEntry)}
    (hm : Listing (n.disk .monitors) lm) (hu : Listing (n.disk .updates) lu) :
    ∃ ms, readChannelMonitorState S lm lu = .done ms ∧
      (ms.map ChannelMonitor.fundingTxo).Nodup ∧
      ∀ o m, n.monitors o = some m ↔ m ∈ ms ∧ m.fundingTxo = o := by
  obtain ⟨s, hs, ha⟩ := h.accounted
  obtain ⟨ms, es, hms, hes, -, -, hread⟩ := readChannelMonitorState_stores hs hm hu
  have hone : ∀ m₀ ∈ ms, ∃ m, n.monitors m₀.fundingTxo = some m ∧
      replayUpdates (es.foldl pushUpdate fun _ => none) m₀ = .done m := by
    intro m₀ hm₀
    have hsnap := (hms.mem_iff m₀).mp hm₀
    cases hmon : n.monitors m₀.fundingTxo with
    | none =>
      rw [(ha.absent _ hmon).1] at hsnap
      cases hsnap
    | some m =>
      obtain ⟨m₁, us, ht⟩ := ha.present _ m hmon
      cases ht.snap.symm.trans hsnap
      refine ⟨m, rfl, ht.replayUpdates_eq hes fun e he htxid => ?_⟩
      exact h.distinctTxids _ _ (ha.isSome_of_upd ((hes.mem_iff e.1 e.2).mp he))
        (by rw [hmon]; rfl) htxid
  -- each snapshot is replaced by the monitor in memory under the same outpoint
  let rebuilt := fun m₀ : ChannelMonitor M => (n.monitors m₀.fundingTxo).getD m₀
  have hrebuilt : ∀ m₀ ∈ ms, n.monitors m₀.fundingTxo = some (rebuilt m₀) := by
    intro m₀ hm₀
    obtain ⟨m, hmon, -⟩ := hone m₀ hm₀
    simp only [rebuilt, hmon, Option.getD_some]
  refine ⟨ms.map rebuilt, ?_, ?_, fun o m => ?_⟩
  · rw [hread]
    refine replayMonitors_done rebuilt fun m₀ hm₀ => ?_
    obtain ⟨m, hmon, hreplay⟩ := hone m₀ hm₀
    cases hmon.symm.trans (hrebuilt m₀ hm₀)
    exact hreplay
  · have hkeys : (ms.map rebuilt).map ChannelMonitor.fundingTxo =
        ms.map ChannelMonitor.fundingTxo := by
      rw [List.map_map]
      exact List.map_congr_left fun m₀ hm₀ => h.owned _ _ (hrebuilt m₀ hm₀)
    rw [hkeys]
    exact hms.nodup
  · rw [List.mem_map]
    constructor
    · intro ho
      obtain ⟨m₀, us, ht⟩ := ha.present o m ho
      have hm₀ : m₀.fundingTxo = o := s.snap_fundingTxo ht.snap
      have hmem : m₀ ∈ ms := (hms.mem_iff m₀).mpr (by rw [hm₀]; exact ht.snap)
      refine ⟨⟨m₀, hmem, ?_⟩, h.owned o m ho⟩
      have := hrebuilt m₀ hmem
      rw [hm₀, ho] at this
      exact (Option.some.inj this).symm
    · rintro ⟨⟨m₀, hmem, rfl⟩, rfl⟩
      have hm := hrebuilt m₀ hmem
      rw [h.owned _ _ hm]
      exact hm

/-- **Monitor persistence refines the monitors in memory.**  From any node whose
monitors are all stored, with different funding transactions, after any run of
accepted updates and block batches and in whatever order the directories are
listed, startup goes through and returns exactly the monitors in memory, one a
channel. -/
theorem restart_rebuilds_memory {n₀ n : Node M} (h₀ : Fresh S n₀)
    (hrun : Relation.ReflTransGen (Step S) n₀ n) {lm lu : Option (List DirEntry)}
    (hm : Listing (n.disk .monitors) lm) (hu : Listing (n.disk .updates) lu) :
    ∃ ms, readChannelMonitorState S lm lu = .done ms ∧
      (ms.map ChannelMonitor.fundingTxo).Nodup ∧
      ∀ o m, n.monitors o = some m ↔ m ∈ ms ∧ m.fundingTxo = o :=
  (h₀.synced.run hrun).restart hm hu

/-! ## Runs exist -/

variable (S)

/-- An update that does not panic goes through on every disk. -/
theorem exists_updateChannel (n : Node M) {id : OutPoint} {m m' : ChannelMonitor M} {ok : Bool}
    {u : ChannelMonitorUpdate M} (hm : n.monitors id = some m)
    (hu : updateMonitor u m = .returned ok m') :
    ∃ order disk, updateChannel S order id u n =
      some (n.insert id m' disk, if ok then .ok () else .error .permanentFailure) := by
  obtain ⟨disk, order, h⟩ :=
    exists_completes (S := S) (.updatePersistedChannel id (some u) m') n.disk
  refine ⟨order, disk, ?_⟩
  rw [PersistCall.steps] at h
  simp only [updateChannel, hm, hu, h, Option.map_some]

/-- So does adding a channel. -/
theorem exists_watchChannel (n : Node M) {o : OutPoint} (hm : n.monitors o = none)
    (m : ChannelMonitor M) :
    ∃ order disk, watchChannel S order o m n = some (n.insert o m disk, .ok ()) := by
  obtain ⟨disk, order, h⟩ := exists_completes (S := S) (.persistNewChannel o m) n.disk
  refine ⟨order, disk, ?_⟩
  rw [PersistCall.steps] at h
  simp only [watchChannel, hm, h, Option.map_some]
  rfl

/-- So does a block on a channel, before it is the turn of the others. -/
theorem exists_processChainData (n : Node M) (block : BlockEffect M) {o : OutPoint}
    {m : ChannelMonitor M} (hm : n.monitors o = some m) :
    ∃ order disk, ∀ visits, processChainData S block ((o, order) :: visits) n =
      processChainData S block visits (n.insert o (block.process m) disk) := by
  obtain ⟨disk, order, h⟩ := exists_completes (S := S)
    (.updatePersistedChannel o none (block.process m)) n.disk
  refine ⟨order, disk, fun visits => ?_⟩
  rw [PersistCall.steps] at h
  simp only [processChainData, hm, h, Option.bind_some]

/-- A node before its first channel. -/
def Node.empty : Node M := ⟨fun _ => none, fun _ => none⟩

theorem fresh_empty : Fresh S Node.empty where
  owned o m h := by cases h
  distinctTxids o o' h := by cases h
  stored := ⟨Store.empty, stores_empty S, rfl, fun _ _ => rfl⟩

variable {S}

/-- **Opening a channel on a new transaction keeps a fresh node fresh.** -/
theorem Fresh.watchChannel {n n' : Node M} (h : Fresh S n) {order : List Text} {o : OutPoint}
    {m : ChannelMonitor M} (hm : m.fundingTxo = o)
    (hnew : ∀ o', (n.monitors o').isSome → o'.txid ≠ o.txid)
    (hw : watchChannel S order o m n = some (n', .ok ())) : Fresh S n' := by
  rw [HiddenLightning.watchChannel] at hw
  split at hw
  · cases hw
  · obtain ⟨disk, hrun, heq⟩ := Option.map_eq_some_iff.mp hw
    cases heq
    obtain ⟨s, hs, hsnap, hupd⟩ := h.stored
    refine ⟨h.owned.insert hm disk, fun o₁ o₂ h₁ h₂ htxid => ?_, s.save m, ?_, ?_, fun _ _ => rfl⟩
    · rw [Node.insert_monitors] at h₁ h₂
      split at h₁ <;> split at h₂
      · rename_i he₁ he₂
        rw [he₁, he₂]
      · rename_i he₁ _
        exact absurd (he₁ ▸ htxid.symm) (hnew o₂ h₂)
      · rename_i _ he₂
        exact absurd (he₂ ▸ htxid) (hnew o₁ h₁)
      · exact h.distinctTxids o₁ o₂ h₁ h₂ htxid
    · exact hs.call (c := .persistNewChannel o m) hm ⟨order, hrun⟩
    · funext o'
      rw [Node.insert_monitors]
      simp [Store.save, hm, hsnap]

/-- There is a node with one channel. -/
theorem exists_fresh {o : OutPoint} {m : ChannelMonitor M} (hm : m.fundingTxo = o) :
    ∃ disk, Fresh S (Node.empty.insert o m disk) := by
  obtain ⟨order, disk, h⟩ := exists_watchChannel S Node.empty (o := o) rfl m
  exact ⟨disk, (fresh_empty S).watchChannel hm (fun o' ho' => absurd ho' Bool.false_ne_true) h⟩

/-! ## Two channels -/

/-- The node has the monitors `m` and `m'`, and no other. -/
def Node.Holds (n : Node M) (m m' : ChannelMonitor M) : Prop :=
  ∀ o, n.monitors o =
    if o = m.fundingTxo then some m else if o = m'.fundingTxo then some m' else none

theorem Node.Holds.swap {n : Node M} {m m' : ChannelMonitor M} (h : n.Holds m m')
    (hne : m.fundingTxo ≠ m'.fundingTxo) : n.Holds m' m := by
  intro o
  rw [h o]
  by_cases ho : o = m.fundingTxo
  · rw [if_pos ho, if_neg (ho ▸ hne), if_pos ho]
  · rw [if_neg ho, if_neg ho]

theorem Node.Holds.insert {n : Node M} {m m' m₁ : ChannelMonitor M} (h : n.Holds m m')
    (hm₁ : m₁.fundingTxo = m.fundingTxo) (disk : PersistDisk) :
    (n.insert m.fundingTxo m₁ disk).Holds m₁ m' := by
  intro o
  rw [Node.insert_monitors, h o, hm₁]
  split <;> rfl

/-- Two channels on different transactions can be opened. -/
theorem exists_fresh_holds {m m' : ChannelMonitor M}
    (hne : m.fundingTxo.txid ≠ m'.fundingTxo.txid) : ∃ n, Fresh S n ∧ n.Holds m m' := by
  have hout : m.fundingTxo ≠ m'.fundingTxo := fun h => hne (congrArg OutPoint.txid h)
  obtain ⟨disk', hfresh⟩ := exists_fresh (S := S) (m := m') rfl
  obtain ⟨order, disk, hopen⟩ := exists_watchChannel S
    (Node.empty.insert m'.fundingTxo m' disk') (o := m.fundingTxo)
    (by rw [Node.insert_monitors, if_neg hout]; rfl) m
  refine ⟨_, hfresh.watchChannel rfl (fun o ho => ?_) hopen, fun o => ?_⟩
  · rw [Node.insert_monitors] at ho
    split at ho
    · rename_i heq
      rw [heq]
      exact hne.symm
    · cases ho
  · rw [Node.insert_monitors, Node.insert_monitors]
    rfl

/-- The first of them can be updated. -/
theorem Node.Holds.exists_update {n : Node M} {m m' m₁ : ChannelMonitor M} (h : n.Holds m m')
    {u : ChannelMonitorUpdate M} (hu : u.updateId ≠ closedChannelUpdateId)
    (hup : updateMonitor u m = .returned true m₁) (hm₁ : m₁.fundingTxo = m.fundingTxo) :
    ∃ n', Step S n n' ∧ n'.Holds m₁ m' := by
  have hm : n.monitors m.fundingTxo = some m := by rw [h, if_pos rfl]
  obtain ⟨order, disk, hcall⟩ := exists_updateChannel S n hm hup
  exact ⟨_, .update hu hcall, h.insert hm₁ disk⟩

/-- And a block can come to both. -/
theorem Node.Holds.exists_block {n : Node M} {m m' : ChannelMonitor M} (h : n.Holds m m')
    (hne : m.fundingTxo ≠ m'.fundingTxo) (block : BlockEffect M) :
    ∃ n', Step S n n' ∧ n'.Holds (block.process m) (block.process m') := by
  have hm : n.monitors m.fundingTxo = some m := by rw [h, if_pos rfl]
  obtain ⟨order, disk, hfirst⟩ := exists_processChainData S n block hm
  have hone := h.insert (block.fundingTxo_process m) disk
  have htwo := hone.swap (by rw [block.fundingTxo_process]; exact hne)
  have hm' : (n.insert m.fundingTxo (block.process m) disk).monitors m'.fundingTxo = some m' := by
    rw [htwo, if_pos rfl]
  obtain ⟨order', disk', hsecond⟩ := exists_processChainData S _ block hm'
  have hboth := (htwo.insert (block.fundingTxo_process m') disk').swap (by
    rw [block.fundingTxo_process, block.fundingTxo_process]
    exact hne.symm)
  have hall : ∀ o, o ∈ [(m.fundingTxo, order), (m'.fundingTxo, order')].map Prod.fst ↔
      (n.monitors o).isSome := by
    intro o
    rw [h o]
    split <;> rename_i hfirst
    · simp [hfirst]
    · split <;> simp_all
  have hprocess := hfirst [(m'.fundingTxo, order')]
  rw [hsecond] at hprocess
  exact ⟨_, .block hall hprocess, hboth⟩

/-- A block that spends the funding output `o`. -/
def spendOf (o : OutPoint) : BlockEffect M where
  process m := { m with fundingSpendSeen := m.fundingSpendSeen || decide (m.fundingTxo = o) }
  fundingTxo_process _ := rfl

/-- The first of two channels claims a payment with preimage 7, a block closes the second, and the
first claims one more: both are read back. -/
theorem restart_rebuilds_preimages : ∃ (disk : PersistDisk) (lm lu : Option (List DirEntry))
    (ms : List (ChannelMonitor preimageKeeper)),
    Listing (disk .monitors) lm ∧ Listing (disk .updates) lu ∧
      readChannelMonitorState preimageSerial lm lu = .done ms ∧
      { openedMonitor ⟨.ofByte 1, 0⟩ with latestUpdateId := 2, state := [9, 7] } ∈ ms ∧
      { openedMonitor ⟨.ofByte 2, 3⟩ with fundingSpendSeen := true } ∈ ms := by
  generalize ho : (⟨.ofByte 1, 0⟩ : OutPoint) = first
  generalize ho' : (⟨.ofByte 2, 3⟩ : OutPoint) = second
  have htxid : first.txid ≠ second.txid := by subst ho ho'; decide
  have hne : first ≠ second := fun h => htxid (congrArg OutPoint.txid h)
  obtain ⟨n₀, hfresh, hopened⟩ : ∃ n, Fresh preimageSerial n ∧
      n.Holds (openedMonitor first) (openedMonitor second) := exists_fresh_holds htxid
  obtain ⟨n₁, hclaim, hclaimed⟩ := hopened.exists_update (S := preimageSerial)
    (u := preimageUpdate 1 7) (by decide) (updateMonitor_preimageUpdate 1 7 (Or.inr rfl)) rfl
  obtain ⟨n₂, hspend, hspent⟩ := hclaimed.exists_block (S := preimageSerial) hne (spendOf second)
  -- the block spends the output of the second channel only
  have hopen : (spendOf second).process
      { openedMonitor first with latestUpdateId := 1, state := [7] } =
      { openedMonitor first with latestUpdateId := 1, state := [7] } := by
    simp [spendOf, openedMonitor, hne]
  have hclosed : (spendOf second).process (openedMonitor second) =
      { openedMonitor second with fundingSpendSeen := true } := by
    simp [spendOf, openedMonitor]
  obtain ⟨n₃, hclaim', hclaimed'⟩ := (hopen ▸ hclosed ▸ hspent).exists_update
    (S := preimageSerial) (u := preimageUpdate 2 9) (by decide)
    (updateMonitor_preimageUpdate 2 9 (Or.inr rfl)) rfl
  obtain ⟨lm, hlm⟩ := exists_listing (n₃.disk .monitors)
  obtain ⟨lu, hlu⟩ := exists_listing (n₃.disk .updates)
  obtain ⟨ms, hdone, -, hmem⟩ := restart_rebuilds_memory hfresh
    (((Relation.ReflTransGen.single hclaim).tail hspend).tail hclaim') hlm hlu
  refine ⟨n₃.disk, lm, lu, ms, hlm, hlu, hdone, ((hmem first _).mp ?_).1, ((hmem second _).mp ?_).1⟩
  · rw [hclaimed' first]
    exact if_pos rfl
  · rw [hclaimed'.swap hne second]
    exact if_pos rfl

end HiddenLightning
