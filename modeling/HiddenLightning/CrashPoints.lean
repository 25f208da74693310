import HiddenLightning.ChainMonitor

/-! # Crashes inside a call of the persister

A call of the persister is a list of filesystem steps, and a crash leaves the disk
after some prefix of it.  Every file is written under a temporary name and renamed, so
no reader ever sees half a file; what a crash can separate are the two halves of a full
write: the new snapshot, put in place by a rename, and the removal of the updates it
includes.  In between the stale updates are still in `updates/`, and applying the first
of them to the new snapshot panics, since its number is not the next one.

`crash_recovers_iff` says that this is the only way a crash can do harm: startup rebuilds
the monitor from before the call or the one from after it, unless the crash falls after
the snapshot's rename and before the removal of the last update file.
-/
namespace HiddenLightning
open Numerals FileStore LogReplay

variable {M : MonitorImpl} (S : Serial M)

/-! ## One channel's calls -/

/-- The next call for channel `o`, when the monitor in memory was `before` and is `after`
at the call: the channel is opened; it is handed to the chain monitor again at startup;
an update with the next number was accepted; or a block was processed.  Only an update
changes the monitor's number. -/
inductive NextCall (o : OutPoint) : Option (ChannelMonitor M) → PersistCall M →
    ChannelMonitor M → Prop
  | opened {m : ChannelMonitor M} (hm : m.fundingTxo = o) :
      NextCall o none (.persistNewChannel o m) m
  | watched {m m' : ChannelMonitor M} (hm : m'.fundingTxo = o)
      (hid : m'.latestUpdateId = m.latestUpdateId) :
      NextCall o (some m) (.persistNewChannel o m') m'
  | update {m m' : ChannelMonitor M} {u : ChannelMonitorUpdate M}
      (hu : u.updateId ≠ closedChannelUpdateId) (hum : updateMonitor u m = .returned true m') :
      NextCall o (some m) (.updatePersistedChannel o (some u) m') m'
  | block {m m' : ChannelMonitor M} (hm : m'.fundingTxo = o)
      (hid : m'.latestUpdateId = m.latestUpdateId) :
      NextCall o (some m) (.updatePersistedChannel o none m') m'

/-- The disk after complete calls for channel `o`, and the monitor in memory. -/
inductive Persisted (o : OutPoint) : PersistDisk → Option (ChannelMonitor M) → Prop
  | empty : Persisted o (fun _ => none) none
  | call {d d' : PersistDisk} {before : Option (ChannelMonitor M)} {c : PersistCall M}
      {after : ChannelMonitor M} (hd : Persisted o d before) (hc : NextCall o before c after)
      (h : c.Completes S d d') : Persisted o d' (some after)

/-- The disk found after a crash: the files of `dk`, whatever became of the temporary ones. -/
def AfterCrash (dk dc : PersistDisk) : Prop := ∀ q n, ¬ Skipped n → look dc q n = look dk q n

/-- After `k` steps the new snapshot is in place and a file of `updates/` is still to be
removed. -/
def StaleCrash (steps : List PersistStep) (k : Nat) : Prop :=
  (∃ a b, .rename .monitors a b ∈ steps.take k) ∧ ∃ f, .unlink .updates f ∈ steps.drop k

/-- The store accounts for the monitor in memory, if there is one. -/
def Account (s : Store M) (o : OutPoint) : Option (ChannelMonitor M) → Prop
  | none => s.snap o = none ∧ ∀ i, s.upd o i = none
  | some m => ∃ m₀ us, Tracks s o m m₀ us ∧ ∀ u ∈ us, u.updateId ≠ closedChannelUpdateId

/-- No temporary file is left. -/
def Tidy (d : PersistDisk) : Prop := ∀ q n, (look d q n).isSome → ¬ Skipped n

variable {S}

/-- A call is the write of an update, or the full write of the monitor in memory. -/
theorem NextCall.cases {o : OutPoint} {before : Option (ChannelMonitor M)} {c : PersistCall M}
    {after : ChannelMonitor M} (h : NextCall o before c after) :
    (∃ m u, before = some m ∧ c = .updatePersistedChannel o (some u) after ∧
      u.updateId ≠ closedChannelUpdateId ∧ updateMonitor u m = .returned true after) ∨
    (after.fundingTxo = o ∧ (∀ m, before = some m → after.latestUpdateId = m.latestUpdateId) ∧
      ∀ (S : Serial M) order, c.steps S order =
        writeToFile .monitors (monitorFilename o) S.monitor after ++ emptyDir .updates order) := by
  cases h with
  | opened hm => exact Or.inr ⟨hm, fun m hb => (nomatch hb), fun _ _ => rfl⟩
  | watched hm hid =>
    refine Or.inr ⟨hm, fun m hb => ?_, fun _ _ => rfl⟩
    cases hb
    exact hid
  | update hu hum => exact Or.inl ⟨_, _, rfl, rfl, hu, hum⟩
  | block hm hid =>
    refine Or.inr ⟨hm, fun m hb => ?_, fun _ _ => rfl⟩
    cases hb
    exact hid

/-! ## The state between calls -/

theorem Tidy.writeToFile {d d' : PersistDisk} (h : Tidy d) {α : Type} {path : StorePath}
    {filename : Text} (hf : Wellformed filename) {c : Codec α} {data : α}
    (hrun : run (writeToFile path filename c data) d = some d') : Tidy d' := by
  intro q n hn
  by_cases hq : q = path
  · subst hq
    rcases isSome_of_look_written hf hrun hn with rfl | hn
    · exact hf.not_skipped
    · exact h _ n hn
  · rw [look_written_elsewhere hf hrun hq] at hn
    exact h q n hn

theorem Tidy.emptyDir {d d' : PersistDisk} (h : Tidy d) {order : List Text}
    (hrun : run (emptyDir .updates order) d = some d') : Tidy d' := by
  intro q n hn
  rw [look_emptyDir hrun] at hn
  split at hn
  · cases hn
  · exact h q n hn

theorem account_save {s : Store M} {o : OutPoint} {m : ChannelMonitor M} (hm : m.fundingTxo = o) :
    Account (s.save m) o (some m) := by
  refine ⟨m, [], Tracks.of_snap ?_ fun _ => rfl, by simp⟩
  rw [Store.save_snap, if_pos hm.symm]

theorem Account.log {s : Store M} {o : OutPoint} {m m' : ChannelMonitor M}
    (h : Account s o (some m)) {u : ChannelMonitorUpdate M}
    (hu : u.updateId ≠ closedChannelUpdateId) (hum : updateMonitor u m = .returned true m') :
    Account (s.log o u) o (some m') := by
  obtain ⟨m₀, us, ht, hus⟩ := h
  refine ⟨m₀, us ++ [u], ht.log hu hum, fun v hv => ?_⟩
  rcases List.mem_append.mp hv with hv | hv
  · exact hus v hv
  · rw [List.mem_singleton.mp hv]
    exact hu

/-- **Between calls** the files account for memory and no temporary file is left. -/
theorem Persisted.settled {o : OutPoint} {d : PersistDisk} {before : Option (ChannelMonitor M)}
    (h : Persisted S o d before) :
    ∃ s, Stores S d s ∧ s.Only o ∧ Tidy d ∧ Account s o before := by
  induction h with
  | empty =>
    refine ⟨Store.empty, stores_empty S, fun _ _ => ⟨rfl, fun _ => rfl⟩, fun _ _ hn => ?_, rfl,
      fun _ => rfl⟩
    exact absurd hn Bool.false_ne_true
  | @call d d' before c after _ hc h ih =>
    obtain ⟨s, hs, honly, htidy, hacc⟩ := ih
    rcases hc.cases with ⟨m, u, rfl, rfl, hu, hum⟩ | ⟨hm, -, hsteps⟩
    · refine ⟨s.log o u, hs.call_update h, honly.log u, ?_, hacc.log hu hum⟩
      obtain ⟨order, h⟩ := h
      obtain ⟨d₁, h₁, h⟩ := Option.bind_eq_some_iff.mp h
      have htidy₁ : Tidy d₁ := fun q n hn => by
        rw [look_exec h₁ fun ht => ht.elim] at hn
        exact htidy q n hn
      exact htidy₁.writeToFile (wellformed_updateFilename o u.updateId) h
    · obtain ⟨order, h⟩ := h
      rw [hsteps] at h
      refine ⟨s.save after, hs.save (by rw [hm]; exact h), honly.save hm, ?_, account_save hm⟩
      rw [run_append] at h
      obtain ⟨d₁, h₁, h₂⟩ := Option.bind_eq_some_iff.mp h
      exact (htidy.writeToFile (wellformed_monitorFilename o) h₁).emptyDir h₂

/-- Startup on an accounted channel. -/
theorem Account.restart {d : PersistDisk} {s : Store M} {o : OutPoint}
    {before : Option (ChannelMonitor M)} (h : Account s o before) (hs : Stores S d s)
    (honly : s.Only o) {lm lu : Option (List DirEntry)} (hlm : Listing (d .monitors) lm)
    (hlu : Listing (d .updates) lu) : readChannelMonitorState S lm lu = .done before.toList := by
  obtain ⟨map, -, -, hstate, hus⟩ := honly.step7 hs hlm hlu
  rw [hstate]
  match before, h with
  | none, h =>
    rw [h.1]
    rfl
  | some m, ⟨m₀, us, ht, _⟩ =>
    rw [ht.snap, Option.toList_some, replayMonitors, replayUpdates, hus m₀ us _ ht.snap ht.numbered,
      replay_of_advance ht.advance]
    rfl

/-! ## Inside a call -/

/-- **Inside the write of an update**: the update is stored or it is not. -/
theorem crash_in_update {d dk : PersistDisk} {s : Store M} (hs : Stores S d s) {o : OutPoint}
    {u : ChannelMonitorUpdate M} (m : ChannelMonitor M) (order : List Text) {k : Nat}
    (hk : run (((PersistCall.updatePersistedChannel o (some u) m).steps S order).take k) d =
      some dk) : Stores S dk s ∨ Stores S dk (s.log o u) := by
  cases k with
  | zero =>
    cases hk
    exact Or.inl hs
  | succ k =>
    obtain ⟨d₁, h₁, hk⟩ := Option.bind_eq_some_iff.mp hk
    have hs₁ : Stores S d₁ s := hs.of_look fun q n _ => look_exec h₁ fun ht => ht.elim
    rcases run_take_writeToFile (wellformed_updateFilename o u.updateId) hk with
      ⟨-, hlook⟩ | ⟨-, hrun⟩
    · exact Or.inl (hs₁.of_look hlook)
    · exact Or.inr (hs₁.log hrun)

/-- The steps of a full write. -/
abbrev fullWrite (S : Serial M) (order : List Text) (o : OutPoint) (m : ChannelMonitor M) :
    List PersistStep :=
  writeToFile .monitors (monitorFilename o) S.monitor m ++ emptyDir .updates order

theorem rename_mem_writeToFile {α : Type} {path : StorePath} {filename a b : Text} {c : Codec α}
    {data : α} : .rename path a b ∈ writeToFile path filename c data ↔
      a = tmpFilename filename ∧ b = filename := by
  simp [writeToFile, replaceFile, stage]

theorem unlink_notMem_writeToFile {α : Type} {path p : StorePath} {filename f : Text} {c : Codec α}
    {data : α} : .unlink p f ∉ writeToFile path filename c data := by
  simp [writeToFile, replaceFile, stage]

/-- The rename of a full write is made, or none of its steps from there on is. -/
theorem take_fullWrite (order : List Text) (o : OutPoint) (m : ChannelMonitor M) (k : Nat) :
    ∃ j, (fullWrite S order o m).take k =
        (writeToFile .monitors (monitorFilename o) S.monitor m).take k ++
          (emptyDir .updates order).take j ∧
      (fullWrite S order o m).drop k =
        (writeToFile .monitors (monitorFilename o) S.monitor m).drop k ++
          (emptyDir .updates order).drop j ∧
      (.rename .monitors (tmpFilename (monitorFilename o)) (monitorFilename o) ∉
        (writeToFile .monitors (monitorFilename o) S.monitor m).take k → j = 0) := by
  refine ⟨_, List.take_append, List.drop_append, fun hnot => Nat.sub_eq_zero_of_le ?_⟩
  by_contra hgt
  refine hnot ?_
  rw [List.take_of_length_le (Nat.le_of_not_le hgt)]
  exact rename_mem_writeToFile.mpr ⟨rfl, rfl⟩

/-- **Inside a full write**: up to the rename a reader sees nothing of it.  After it the new
snapshot is there, some files of `updates/` are gone, and one is left exactly in a stale
crash. -/
theorem look_take_fullWrite {d dk d' : PersistDisk} {o : OutPoint} {m : ChannelMonitor M}
    {order : List Text} {k : Nat} (h : run (fullWrite S order o m) d = some d')
    (hk : run ((fullWrite S order o m).take k) d = some dk) :
    (¬ StaleCrash (fullWrite S order o m) k ∧ ∀ q n, ¬ Skipped n → look dk q n = look d q n) ∨
    ((∀ n, look dk .monitors n = look d' .monitors n) ∧
      (∀ n, look dk .updates n = none ∨ look dk .updates n = look d .updates n) ∧
      (StaleCrash (fullWrite S order o m) k ↔ ∃ f, look dk .updates f ≠ none)) := by
  have hwf := wellformed_monitorFilename o
  obtain ⟨j, htake, hdrop, hj⟩ := take_fullWrite (S := S) order o m k
  rw [htake, run_append] at hk
  obtain ⟨d₁, hk₁, hk₂⟩ := Option.bind_eq_some_iff.mp hk
  rcases run_take_writeToFile hwf hk₁ with ⟨hnot, hlook⟩ | ⟨hmem, hw⟩
  · left
    rw [hj hnot] at hk₂ htake
    cases hk₂
    refine ⟨?_, hlook⟩
    rintro ⟨⟨a, b, hab⟩, -⟩
    rw [htake, List.take_zero, List.append_nil] at hab
    obtain ⟨rfl, rfl⟩ := rename_mem_writeToFile.mp (List.mem_of_mem_take hab)
    exact hnot hab
  · right
    have he : run (emptyDir .updates order) d₁ = some d' := by
      rw [run_append, hw] at h
      exact h
    obtain ⟨hother, hsome, hall⟩ := look_take_emptyDir hk₂ he
    refine ⟨fun n => ?_, fun n => ?_, ?_⟩
    · rw [hother _ n (by decide), look_emptyDir he, if_neg (by decide)]
    · have hupdates : look d₁ .updates n = look d .updates n :=
        look_written_elsewhere hwf hw (by decide) n
      rw [← hupdates]
      exact hsome n
    · rw [← not_forall, hall, StaleCrash, htake, hdrop]
      push Not
      constructor
      · rintro ⟨-, f, hf⟩
        exact ⟨f, (List.mem_append.mp hf).resolve_left fun hc =>
          unlink_notMem_writeToFile (List.mem_of_mem_drop hc)⟩
      · rintro ⟨f, hf⟩
        exact ⟨⟨_, _, List.mem_append_left _ hmem⟩, f, List.mem_append_right _ hf⟩

/-- The store of a stale crash: the new snapshot, and those updates whose file is left. -/
def Store.stale (s : Store M) (m : ChannelMonitor M) (dk : PersistDisk) : Store M where
  snap := (s.save m).snap
  upd o i := if (look dk .updates (updateFilename o i)).isSome then s.upd o i else none
  snap_fundingTxo := (s.save m).snap_fundingTxo
  upd_updateId := by
    intro o i u h
    split at h
    · exact s.upd_updateId h
    · cases h

theorem stores_stale {d dk d' : PersistDisk} {s : Store M} (hs : Stores S d s)
    {m : ChannelMonitor M} (hs' : Stores S d' (s.save m))
    (hmonitors : ∀ n, look dk .monitors n = look d' .monitors n)
    (hupdates : ∀ n, look dk .updates n = none ∨ look dk .updates n = look d .updates n) :
    Stores S dk (s.stale m dk) where
  monitors o := by rw [hmonitors, hs'.monitors]; rfl
  updates o i := by
    rcases hupdates (updateFilename o i) with hn | hn
    · simp [Store.stale, hn]
    · simp only [Store.stale, hn, hs.updates]
      cases s.upd o i <;> rfl
  monitors_name n hn := hs'.monitors_name n (by rw [← hmonitors]; exact hn)
  updates_name n hn := by
    rcases hupdates n with hc | hc
    · rw [hc] at hn
      cases hn
    · exact hs.updates_name n (by rw [← hc]; exact hn)

theorem Store.upd_of_stale {s : Store M} {m : ChannelMonitor M} {dk : PersistDisk} {o : OutPoint}
    {i : UInt64} {u : ChannelMonitorUpdate M} (h : (s.stale m dk).upd o i = some u) :
    s.upd o i = some u := by
  simp only [Store.stale] at h
  split at h
  · exact h
  · cases h

theorem Store.Only.stale {s : Store M} {o : OutPoint} (h : s.Only o) {m : ChannelMonitor M}
    (hm : m.fundingTxo = o) (dk : PersistDisk) : (s.stale m dk).Only o := by
  intro o₁ ho₁
  refine ⟨(h.save hm o₁ ho₁).1, fun i => ?_⟩
  simp only [Store.stale, (h o₁ ho₁).2, ite_self]

/-- The updates left keep their order. -/
theorem Numbered.stale {s : Store M} {o : OutPoint} {us : List (ChannelMonitorUpdate M)}
    {latest : UInt64} (h : Numbered s o us latest) (m : ChannelMonitor M) (dk : PersistDisk) :
    Numbered (s.stale m dk) o
      (us.filter fun v => (look dk .updates (updateFilename o v.updateId)).isSome) latest := by
  refine ⟨h.ascending.filter _, fun v => ?_, fun v hv => h.bound v (List.mem_of_mem_filter hv)⟩
  rw [List.mem_filter, h.mem_iff]
  simp only [Store.stale]
  split
  · rename_i hsome
    simp [hsome]
  · rename_i hnone
    simp [hnone]

/-- **A stale update makes startup panic**: none of the updates left has the number that
follows the new snapshot's. -/
theorem Account.panics {s : Store M} {o : OutPoint} {before : Option (ChannelMonitor M)}
    (h : Account s o before) (honly : s.Only o) {m : ChannelMonitor M} (hm : m.fundingTxo = o)
    (hid : ∀ m₁, before = some m₁ → m.latestUpdateId = m₁.latestUpdateId) {dk dc : PersistDisk}
    (hstale : ∃ o i, ((s.stale m dk).upd o i).isSome) (hs : Stores S dc (s.stale m dk))
    {lm lu : Option (List DirEntry)} (hlm : Listing (dc .monitors) lm)
    (hlu : Listing (dc .updates) lu) : readChannelMonitorState S lm lu = .panicked := by
  obtain ⟨o', i, hi⟩ := hstale
  obtain ⟨u, hu⟩ := Option.isSome_iff_exists.mp hi
  have hupd := Store.upd_of_stale hu
  obtain rfl : o' = o := by
    by_contra hne
    rw [(honly o' hne).2] at hupd
    cases hupd
  cases before with
  | none =>
    rw [h.2] at hupd
    cases hupd
  | some m₁ =>
    obtain ⟨m₀, us, ht, hus⟩ := h
    have hsnap : (s.stale m dk).snap o' = some m := if_pos hm.symm
    have hleft := ht.numbered.stale m dk
    obtain ⟨map, -, -, hstate, hfor⟩ := (honly.stale hm dk).step7 hs hlm hlu
    rw [hstate, hsnap, Option.toList_some, replayMonitors, replayUpdates, hfor m _ _ hsnap hleft]
    -- one update is left, and the first of them has a number the snapshot has reached
    have hmem := (hleft.mem_iff u).mpr (by rw [(s.stale m dk).upd_updateId hu]; exact hu)
    cases hcons : us.filter fun v => (look dk .updates (updateFilename o' v.updateId)).isSome with
    | nil =>
      rw [hcons] at hmem
      cases hmem
    | cons v vs =>
      have hfirst : v ∈ us.filter fun v =>
          (look dk .updates (updateFilename o' v.updateId)).isSome := by
        rw [hcons]
        exact List.mem_cons_self
      have hbound := hleft.bound v hfirst
      rw [replay, updateMonitor_panicked (hus v (List.mem_of_mem_filter hfirst))
        (by rw [hid m₁ rfl]; omega)]

/-! ## The theorem -/

theorem not_staleCrash_update (order : List Text) (o : OutPoint) (u : ChannelMonitorUpdate M)
    (m : ChannelMonitor M) (k : Nat) :
    ¬ StaleCrash ((PersistCall.updatePersistedChannel o (some u) m).steps S order) k := by
  rintro ⟨⟨a, b, hab⟩, -⟩
  have := List.mem_of_mem_take hab
  simp [PersistCall.steps, updatePersistedChannel, writeToFile, replaceFile, stage] at this

/-- Startup after a crash inside a call: before or after if the crash is not stale, a panic if
it is. -/
theorem crash_cases {o : OutPoint} {d : PersistDisk} {before : Option (ChannelMonitor M)}
    (hd : Persisted S o d before) {c : PersistCall M} {after : ChannelMonitor M}
    (hc : NextCall o before c after) {order : List Text} {d' : PersistDisk}
    (hrun : run (c.steps S order) d = some d') {k : Nat} {dk dc : PersistDisk}
    (hk : run ((c.steps S order).take k) d = some dk) (hcrash : AfterCrash dk dc)
    {lm lu : Option (List DirEntry)} (hlm : Listing (dc .monitors) lm)
    (hlu : Listing (dc .updates) lu) :
    (¬ StaleCrash (c.steps S order) k ∧ (readChannelMonitorState S lm lu = .done before.toList ∨
      readChannelMonitorState S lm lu = .done [after])) ∨
    (StaleCrash (c.steps S order) k ∧ readChannelMonitorState S lm lu = .panicked) := by
  obtain ⟨s, hs, honly, htidy, hacc⟩ := hd.settled
  rcases hc.cases with ⟨m, u, rfl, rfl, hu, hum⟩ | ⟨hm, hid, hsteps⟩
  · refine Or.inl ⟨not_staleCrash_update order o u after k, ?_⟩
    rcases crash_in_update hs after order hk with hs' | hs'
    · exact Or.inl (hacc.restart (hs'.of_look hcrash) honly hlm hlu)
    · exact Or.inr ((hacc.log hu hum).restart (hs'.of_look hcrash) (honly.log u) hlm hlu)
  · rw [hsteps] at hrun hk ⊢
    have hs' : Stores S d' (s.save after) := hs.save (by rw [hm]; exact hrun)
    rcases look_take_fullWrite hrun hk with ⟨hnot, hlook⟩ | ⟨hmonitors, hupdates, hiff⟩
    · have hsc := (hs.of_look hlook).of_look hcrash
      exact Or.inl ⟨hnot, Or.inl (hacc.restart hsc honly hlm hlu)⟩
    · by_cases hstale : StaleCrash (fullWrite S order o after) k
      · -- the file left is an update's, since no temporary file was there before the call
        obtain ⟨f, hf⟩ := hiff.mp hstale
        have hsome := Option.isSome_iff_ne_none.mpr hf
        have hsome' : (look d .updates f).isSome := by
          rw [← (hupdates f).resolve_left hf]
          exact hsome
        obtain ⟨o₁, i, rfl⟩ := (hs.updates_name f hsome').resolve_left (htidy _ _ hsome')
        have hleft : ∃ o i, ((s.stale after dk).upd o i).isSome := by
          refine ⟨o₁, i, ?_⟩
          rw [hs.updates, Option.isSome_map] at hsome'
          simp only [Store.stale, hsome, if_true, hsome']
        have hsc := (stores_stale hs hs' hmonitors hupdates).of_look hcrash
        exact Or.inr ⟨hstale, hacc.panics honly hm hid hleft hsc hlm hlu⟩
      · have hnone : ∀ f, look dk .updates f = none := by
          intro f
          by_contra hf
          exact hstale (hiff.mpr ⟨f, hf⟩)
        have hsc : Stores S dk (s.save after) := hs'.of_look fun q n _ => by
          cases q with
          | monitors => exact hmonitors n
          | updates =>
            rw [run_append] at hrun
            obtain ⟨d₁, -, he⟩ := Option.bind_eq_some_iff.mp hrun
            rw [hnone, look_emptyDir he, if_pos rfl]
        refine Or.inl ⟨hstale, Or.inr ?_⟩
        exact (account_save hm).restart (hsc.of_look hcrash) (honly.save hm) hlm hlu

/-- **A crash inside a call is recovered from exactly when it is not stale.**  After any
complete calls for one channel and any number of steps of the next one, startup rebuilds the
monitor from before the call or the one from after it, unless the new snapshot was in place
and a file of `updates/` was still to be removed. -/
theorem crash_recovers_iff {o : OutPoint} {d : PersistDisk} {before : Option (ChannelMonitor M)}
    (hd : Persisted S o d before) {c : PersistCall M} {after : ChannelMonitor M}
    (hc : NextCall o before c after) {order : List Text} {d' : PersistDisk}
    (hrun : run (c.steps S order) d = some d') {k : Nat} {dk dc : PersistDisk}
    (hk : run ((c.steps S order).take k) d = some dk) (hcrash : AfterCrash dk dc)
    {lm lu : Option (List DirEntry)} (hlm : Listing (dc .monitors) lm)
    (hlu : Listing (dc .updates) lu) :
    (readChannelMonitorState S lm lu = .done before.toList ∨
      readChannelMonitorState S lm lu = .done [after]) ↔ ¬ StaleCrash (c.steps S order) k := by
  rcases crash_cases hd hc hrun hk hcrash hlm hlu with ⟨hnot, hdone⟩ | ⟨hstale, hpanic⟩
  · exact iff_of_true hdone hnot
  · refine iff_of_false ?_ (not_not_intro hstale)
    rw [hpanic]
    simp

/-- A channel was opened; the write of its first update is cut short after two steps. -/
theorem crash_in_first_update : ∃ (dk : PersistDisk) (lm lu : Option (List DirEntry)),
    Listing (dk .monitors) lm ∧ Listing (dk .updates) lu ∧
      (readChannelMonitorState preimageSerial lm lu = .done [openedMonitor ⟨.ofByte 1, 0⟩] ∨
        readChannelMonitorState preimageSerial lm lu =
          .done [{ openedMonitor ⟨.ofByte 1, 0⟩ with latestUpdateId := 1, state := [7] }]) := by
  generalize (⟨.ofByte 1, 0⟩ : OutPoint) = o
  obtain ⟨d, h⟩ := exists_completes (S := preimageSerial)
    (.persistNewChannel o (openedMonitor o)) fun _ => none
  have hd : Persisted preimageSerial o d _ := Persisted.empty.call (.opened rfl) h
  have hup := updateMonitor_preimageUpdate 1 7 (m := openedMonitor o) (Or.inr rfl)
  have hnext := NextCall.update (o := o) (by decide) hup
  obtain ⟨d', order, hrun⟩ := exists_completes (S := preimageSerial)
    (.updatePersistedChannel o (some (preimageUpdate 1 7)) _) d
  obtain ⟨dk, hk⟩ := run_take hrun 2
  obtain ⟨lm, hlm⟩ := exists_listing (dk .monitors)
  obtain ⟨lu, hlu⟩ := exists_listing (dk .updates)
  refine ⟨dk, lm, lu, hlm, hlu, ?_⟩
  exact (crash_recovers_iff hd hnext hrun hk (fun _ _ _ => rfl) hlm hlu).mpr
    (not_staleCrash_update order o _ _ 2)

/-- A channel was opened and claimed a payment; the full write for the next block is cut short
when the new snapshot is in place, and startup panics on the update it includes. -/
theorem stale_update_panics : ∃ (d dk d' : PersistDisk) (m : ChannelMonitor preimageKeeper)
    (order : List Text) (k : Nat) (lm lu : Option (List DirEntry)),
    Persisted preimageSerial ⟨.ofByte 1, 0⟩ d (some m) ∧
      NextCall ⟨.ofByte 1, 0⟩ (some m) (.updatePersistedChannel ⟨.ofByte 1, 0⟩ none m) m ∧
      run (updatePersistedChannel preimageSerial order ⟨.ofByte 1, 0⟩ none m) d = some d' ∧
      run ((updatePersistedChannel preimageSerial order ⟨.ofByte 1, 0⟩ none m).take k) d = some dk ∧
      Listing (dk .monitors) lm ∧ Listing (dk .updates) lu ∧
      readChannelMonitorState preimageSerial lm lu = .panicked := by
  generalize (⟨.ofByte 1, 0⟩ : OutPoint) = o
  obtain ⟨d₁, h₁⟩ := exists_completes (S := preimageSerial)
    (.persistNewChannel o (openedMonitor o)) fun _ => none
  have hd₁ : Persisted preimageSerial o d₁ _ := Persisted.empty.call (.opened rfl) h₁
  have hup := updateMonitor_preimageUpdate 1 7 (m := openedMonitor o) (Or.inr rfl)
  have hnext := NextCall.update (o := o) (by decide) hup
  obtain ⟨d, h⟩ := exists_completes (S := preimageSerial)
    (.updatePersistedChannel o (some (preimageUpdate 1 7)) _) d₁
  have hd := hd₁.call hnext h
  have hs := ((stores_empty preimageSerial).call (by rfl) h₁).call_update h
  obtain ⟨m, hm⟩ : ∃ m, m = { openedMonitor o with
    latestUpdateId := 1, state := 7 :: (openedMonitor o).state } := ⟨_, rfl⟩
  rw [← hm] at hd
  have hblock : NextCall o (some m) (.updatePersistedChannel o none m) m :=
    .block (by rw [hm]; rfl) rfl
  obtain ⟨d', order, hrun⟩ := exists_completes (S := preimageSerial)
    (.updatePersistedChannel o none m) d
  obtain ⟨dk, hk⟩ := run_take hrun
    (writeToFile .monitors (monitorFilename o) preimageSerial.monitor m).length
  obtain ⟨lm, hlm⟩ := exists_listing (dk .monitors)
  obtain ⟨lu, hlu⟩ := exists_listing (dk .updates)
  refine ⟨d, dk, d', m, order, _, lm, lu, hd, hblock, hrun, hk, hlm, hlu, ?_⟩
  -- the update's file is still there, and gone when the call is complete
  have hsteps : (PersistCall.updatePersistedChannel o none m).steps preimageSerial order =
      fullWrite preimageSerial order o m := rfl
  have hstale : StaleCrash (fullWrite preimageSerial order o m)
      (writeToFile .monitors (monitorFilename o) preimageSerial.monitor m).length := by
    rw [hsteps, List.take_left] at hk
    rw [hsteps, run_append, hk] at hrun
    rw [StaleCrash, List.take_left, List.drop_left]
    refine ⟨⟨_, _, rename_mem_writeToFile.mpr ⟨rfl, rfl⟩⟩, updateFilename o 1, ?_⟩
    by_contra hno
    have hkeep := (removing_emptyDir _ _).look_of_notMem hrun hno
    rw [look_emptyDir hrun, if_pos rfl,
      look_written_elsewhere (wellformed_monitorFilename o) hk (by decide)] at hkeep
    simp [hs.updates, Store.log_upd, preimageUpdate] at hkeep
  rcases crash_cases hd hblock hrun hk (fun _ _ _ => rfl) hlm hlu with ⟨hnot, -⟩ | ⟨-, hpanic⟩
  · exact absurd hstale hnot
  · exact hpanic

end HiddenLightning
