import HiddenLightning.ChainMonitor

/-! # What one channel's write does to another channel

A channel's *recoverable monitor* is what its files amount to: its snapshot in
`monitors/`, followed by its own updates in `updates/` in the order of their
numbers.  A full write for channel A replaces A's snapshot and then empties
`updates/`, which all channels share ("then delete the updates file since manager
includes them").  That is right for A's updates and wrong for those of any other
channel: `full_write_keeps_other_iff` says that another channel comes through
with all its updates exactly when it had none stored.
-/
namespace HiddenLightning
open Numerals FileStore LogReplay

variable {M : MonitorImpl} (S : Serial M)

/-- The disks that complete calls of the persister produce, starting from nothing. -/
inductive Reachable : PersistDisk → Prop
  | empty : Reachable fun _ => none
  | call {d d' : PersistDisk} {c : PersistCall M} (hd : Reachable d) (hown : c.Own)
      (h : c.Completes S d d') : Reachable d'

/-- The updates read back under outpoint `o`. -/
def storedUpdates (o : OutPoint) (updates : Option (List DirEntry)) :
    List (ChannelMonitorUpdate M) :=
  match readDir (readChannelmonitorUpdate S) updates with
  | .error _ => []
  | .ok es => (es.filter fun e => e.1 = o).map Prod.snd

/-- The monitor that channel `o`'s own files amount to; `none` when it has no
snapshot. -/
def recoverable (o : OutPoint) (monitors updates : Option (List DirEntry)) :
    Option (End (ChannelMonitor M)) :=
  match readChannelmonitors S monitors with
  | .error _ => none
  | .ok ms => (ms.find? fun m => m.fundingTxo = o).map fun m =>
      replay updateMonitor (sortUpdates (storedUpdates S o updates)) m

variable {S}

/-- **Every reachable disk holds a store.** -/
theorem Reachable.stores {d : PersistDisk} (h : Reachable S d) : ∃ s, Stores S d s := by
  induction h with
  | empty => exact ⟨Store.empty, stores_empty S⟩
  | call _ hown hc ih =>
    obtain ⟨s, hs⟩ := ih
    exact ⟨s.call _, hs.call hown hc⟩

/-- The updates read back under `o` are the store's. -/
theorem mem_storedUpdates {d : PersistDisk} {s : Store M} (hs : Stores S d s) {o : OutPoint}
    {lu : Option (List DirEntry)} (hl : Listing (d .updates) lu) (u : ChannelMonitorUpdate M) :
    u ∈ storedUpdates S o lu ↔ s.upd o u.updateId = some u := by
  obtain ⟨es, hread, hes⟩ := readDir_updates_stores hs hl
  rw [storedUpdates, hread, ← hes.mem_iff]
  simp

theorem storedUpdates_eq_nil {d : PersistDisk} {s : Store M} (hs : Stores S d s) {o : OutPoint}
    {lu : Option (List DirEntry)} (hl : Listing (d .updates) lu) (h : ∀ i, s.upd o i = none) :
    storedUpdates S o lu = [] := by
  refine List.eq_nil_iff_forall_not_mem.mpr fun u hu => ?_
  rw [mem_storedUpdates hs hl, h] at hu
  cases hu

/-- A channel without stored updates is recovered as its snapshot. -/
theorem recoverable_eq_snap {d : PersistDisk} {s : Store M} (hs : Stores S d s) {o : OutPoint}
    {lm lu : Option (List DirEntry)} (hm : Listing (d .monitors) lm) (hu : Listing (d .updates) lu)
    (h : ∀ i, s.upd o i = none) : recoverable S o lm lu = (s.snap o).map .done := by
  obtain ⟨ms, hread, hms⟩ := readChannelmonitors_stores hs hm
  rw [recoverable, hread, storedUpdates_eq_nil hs hu h]
  dsimp only
  rw [hms.find?_eq, sortUpdates, sortBy, List.mergeSort_nil]
  rfl

/-- Without updates of other outputs, grouping by txid is grouping by outpoint. -/
theorem Updates.filter_txid_eq {s : Store M} {es : List (OutPoint × ChannelMonitorUpdate M)}
    (hes : Updates s es) {o : OutPoint}
    (halone : ∀ o' i, o'.txid = o.txid → o' ≠ o → s.upd o' i = none) :
    es.filter (fun e => e.1.txid = o.txid) = es.filter (fun e => e.1 = o) := by
  refine List.filter_congr fun e he => decide_eq_decide.mpr ⟨fun htxid => ?_, fun ho => ho ▸ rfl⟩
  by_contra hne
  have := (hes.mem_iff e.1 e.2).mp he
  rw [halone e.1 _ htxid hne] at this
  cases this

/-- **Startup rebuilds a channel as its recoverable monitor**, unless an update of
another output of the same transaction is stored. -/
theorem recoverable_eq_replayUpdates {d : PersistDisk} {s : Store M} (hs : Stores S d s)
    {lm lu : Option (List DirEntry)} (hm : Listing (d .monitors) lm) (hu : Listing (d .updates) lu)
    {map : UpdateMap M} (hmap : readChannelmonitorUpdates S lu = .ok map) {m : ChannelMonitor M}
    (hsnap : s.snap m.fundingTxo = some m)
    (halone : ∀ o i, o.txid = m.fundingTxo.txid → o ≠ m.fundingTxo → s.upd o i = none) :
    recoverable S m.fundingTxo lm lu = some (replayUpdates map m) := by
  obtain ⟨ms, hread, hms⟩ := readChannelmonitors_stores hs hm
  obtain ⟨es, hes, hupd⟩ := readDir_updates_stores hs hu
  rw [readChannelmonitorUpdates_of_readDir hes] at hmap
  cases hmap
  rw [recoverable, hread, storedUpdates, hes, replayUpdates, updatesFor_foldl,
    hupd.filter_txid_eq halone]
  dsimp only
  rw [hms.find?_eq, hsnap]
  rfl

theorem recoverable_of_tracks {d : PersistDisk} {s : Store M} (hs : Stores S d s) {o : OutPoint}
    {lm lu : Option (List DirEntry)} (hm : Listing (d .monitors) lm) (hu : Listing (d .updates) lu)
    {m m₀ : ChannelMonitor M} {us : List (ChannelMonitorUpdate M)} (h : Tracks s o m m₀ us)
    (halone : ∀ o' i, o' ≠ o → s.upd o' i = none) :
    recoverable S o lm lu = some (.done m) := by
  obtain ⟨es, hes, hupd⟩ := readDir_updates_stores hs hu
  obtain rfl : m₀.fundingTxo = o := s.snap_fundingTxo h.snap
  rw [recoverable_eq_replayUpdates hs hm hu (readChannelmonitorUpdates_of_readDir hes) h.snap
    fun o' i _ hne => halone o' i hne]
  refine congrArg some (h.replayUpdates_eq hupd fun e he _ => ?_)
  by_contra hne
  have := (hupd.mem_iff e.1 e.2).mp he
  rw [halone e.1 _ hne] at this
  cases this

/-- **A full write for one channel leaves another's recoverable monitor and
updates alone exactly when the other has no update stored.** -/
theorem full_write_keeps_other_iff {d d' : PersistDisk} (hd : Reachable S d) {a b : OutPoint}
    (hne : b ≠ a) {m : ChannelMonitor M} (hm : m.fundingTxo = a) {c : PersistCall M}
    (hc : c = .persistNewChannel a m ∨ c = .updatePersistedChannel a none m)
    (hrun : c.Completes S d d') {lm lu lm' lu' : Option (List DirEntry)}
    (hlm : Listing (d .monitors) lm) (hlu : Listing (d .updates) lu)
    (hlm' : Listing (d' .monitors) lm') (hlu' : Listing (d' .updates) lu') :
    (recoverable S b lm' lu' = recoverable S b lm lu ∧
      ∀ u ∈ storedUpdates S b lu, u ∈ storedUpdates S b lu') ↔
    ∀ i, look d .updates (updateFilename b i) = none := by
  obtain ⟨s, hs⟩ := hd.stores
  have hs' : Stores S d' (s.save m) := by
    rcases hc with rfl | rfl
    · exact hs.call (c := .persistNewChannel a m) hm hrun
    · exact hs.call (c := .updatePersistedChannel a none m) hm hrun
  have hempty : ∀ i, (s.save m).upd b i = none := fun _ => rfl
  have hlook : ∀ i, look d .updates (updateFilename b i) = none ↔ s.upd b i = none := by
    intro i
    rw [hs.updates, Option.map_eq_none_iff]
  simp only [hlook]
  constructor
  · rintro ⟨-, hkeep⟩ i
    by_contra hi
    obtain ⟨u, hu⟩ := Option.ne_none_iff_exists'.mp hi
    have hmem : u ∈ storedUpdates S b lu := by
      rw [mem_storedUpdates hs hlu, s.upd_updateId hu]
      exact hu
    have := hkeep u hmem
    rw [storedUpdates_eq_nil hs' hlu' hempty] at this
    cases this
  · intro hnone
    have hsnap : (s.save m).snap b = s.snap b := by simp [Store.save, hm, hne]
    constructor
    · rw [recoverable_eq_snap hs' hlm' hlu' hempty, recoverable_eq_snap hs hlm hlu hnone, hsnap]
    · rw [storedUpdates_eq_nil hs hlu hnone]
      simp

/-! ## Two channels -/

/-- A disk after one channel's monitor and an update with preimage 7 were written. -/
theorem exists_reachable_preimage (o : OutPoint) : ∃ d, Reachable preimageSerial d ∧
    Stores preimageSerial d ((Store.empty.save (openedMonitor o)).log o (preimageUpdate 1 7)) := by
  obtain ⟨d₁, h₁⟩ := exists_completes (S := preimageSerial)
    (.persistNewChannel o (openedMonitor o)) fun _ => none
  obtain ⟨d₂, h₂⟩ := exists_completes (S := preimageSerial)
    (.updatePersistedChannel o (some (preimageUpdate 1 7)) (openedMonitor o)) d₁
  exact ⟨d₂, (Reachable.empty.call (by rfl) h₁).call (by rfl) h₂,
    ((stores_empty _).call (by rfl) h₁).call (by rfl) h₂⟩

/-- Channel B is opened and then channel A: B keeps all it had. -/
theorem new_channel_keeps_opened_channel :
    ∃ (d d' : PersistDisk) (lm lu lm' lu' : Option (List DirEntry)),
      Reachable preimageSerial d ∧
      (PersistCall.persistNewChannel ⟨.ofByte 2, 0⟩ (openedMonitor ⟨.ofByte 2, 0⟩)).Completes
        preimageSerial d d' ∧
      Listing (d .monitors) lm ∧ Listing (d .updates) lu ∧
      Listing (d' .monitors) lm' ∧ Listing (d' .updates) lu' ∧
      recoverable preimageSerial ⟨.ofByte 1, 0⟩ lm' lu' =
        recoverable preimageSerial ⟨.ofByte 1, 0⟩ lm lu := by
  have hne : (⟨.ofByte 1, 0⟩ : OutPoint) ≠ ⟨.ofByte 2, 0⟩ := by decide
  revert hne
  generalize (⟨.ofByte 1, 0⟩ : OutPoint) = b, (⟨.ofByte 2, 0⟩ : OutPoint) = a
  intro hne
  obtain ⟨d, h⟩ := exists_completes (S := preimageSerial)
    (.persistNewChannel b (openedMonitor b)) fun _ => none
  obtain ⟨d', h'⟩ := exists_completes (S := preimageSerial)
    (.persistNewChannel a (openedMonitor a)) d
  have hd : Reachable preimageSerial d := Reachable.empty.call (by rfl) h
  have hs := (stores_empty preimageSerial).call (by rfl) h
  obtain ⟨lm, hlm⟩ := exists_listing (d .monitors)
  obtain ⟨lu, hlu⟩ := exists_listing (d .updates)
  obtain ⟨lm', hlm'⟩ := exists_listing (d' .monitors)
  obtain ⟨lu', hlu'⟩ := exists_listing (d' .updates)
  have hkeep := full_write_keeps_other_iff hd hne rfl (Or.inl rfl) h' hlm hlu hlm' hlu'
  exact ⟨d, d', lm, lu, lm', lu', hd, h', hlm, hlu, hlm', hlu',
    (hkeep.mpr fun i => by rw [hs.updates]; rfl).1⟩

/-- Channel B claims a payment with preimage 7; then channel A is opened.  The
preimage was recoverable before and is not after. -/
theorem new_channel_drops_preimage : ∃ (d d' : PersistDisk) (lm lu lm' lu' : Option (List DirEntry)),
    Reachable preimageSerial d ∧
      (PersistCall.persistNewChannel ⟨.ofByte 2, 0⟩ (openedMonitor ⟨.ofByte 2, 0⟩)).Completes
        preimageSerial d d' ∧
      Listing (d .monitors) lm ∧ Listing (d .updates) lu ∧
      Listing (d' .monitors) lm' ∧ Listing (d' .updates) lu' ∧
      recoverable preimageSerial ⟨.ofByte 1, 0⟩ lm lu =
        some (.done { openedMonitor ⟨.ofByte 1, 0⟩ with latestUpdateId := 1, state := [7] }) ∧
      recoverable preimageSerial ⟨.ofByte 1, 0⟩ lm' lu' =
        some (.done (openedMonitor ⟨.ofByte 1, 0⟩)) := by
  have hne : (⟨.ofByte 1, 0⟩ : OutPoint) ≠ ⟨.ofByte 2, 0⟩ := by decide
  revert hne
  generalize (⟨.ofByte 1, 0⟩ : OutPoint) = b, (⟨.ofByte 2, 0⟩ : OutPoint) = a
  intro hne
  obtain ⟨d, hd, hs⟩ := exists_reachable_preimage b
  obtain ⟨d', h'⟩ := exists_completes (S := preimageSerial)
    (.persistNewChannel a (openedMonitor a)) d
  have hs' := hs.call (by rfl) h'
  obtain ⟨lm, hlm⟩ := exists_listing (d .monitors)
  obtain ⟨lu, hlu⟩ := exists_listing (d .updates)
  obtain ⟨lm', hlm'⟩ := exists_listing (d' .monitors)
  obtain ⟨lu', hlu'⟩ := exists_listing (d' .updates)
  refine ⟨d, d', lm, lu, lm', lu', hd, h', hlm, hlu, hlm', hlu', ?_, ?_⟩
  · have htracks := (Tracks.of_snap (s := Store.empty.save (openedMonitor b)) (o := b)
      (if_pos rfl) fun _ => rfl).log (u := preimageUpdate 1 7) (by decide)
        (updateMonitor_preimageUpdate 1 7 (Or.inr rfl))
    refine recoverable_of_tracks hs hlm hlu htracks fun o i ho => ?_
    exact if_neg fun h => ho h.1
  · rw [recoverable_eq_snap hs' hlm' hlu' fun _ => rfl]
    have hsnap : (Store.empty.save (openedMonitor b)).snap b = some (openedMonitor b) := if_pos rfl
    exact congrArg (Option.map End.done) ((if_neg hne).trans hsnap)

end HiddenLightning
