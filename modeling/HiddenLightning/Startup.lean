import HiddenLightning.Persister

/-! # Reading the monitors back at startup

Step 7 of `start_ldk` (`main.rs`) reads the full monitors of `monitors/`
(`FilesystemPersister::read_channelmonitors`) and the updates of `updates/`
(`YourPersister::read_channelmonitor_updates`), both in whatever order
`fs::read_dir` lists the files.  The updates are grouped by funding txid; for
each monitor the group of its txid is sorted by update number and applied with
`update_monitor`.  A failed read and a panicking update end the process, an
update that returns `Err` makes `start_ldk` return.

On a disk that holds a store (`Stores`) both readers succeed, whatever the
order: they return each stored snapshot and each stored update once
(`readChannelmonitors_stores`, `readDir_updates_stores`).
-/
namespace HiddenLightning
open Numerals FileStore LogReplay

/-! ## The readers -/

/-- A directory entry: the name, if it is UTF-8, and the content, if it can be
read. -/
structure DirEntry where
  fileName : Option Text
  contents : Option (List UInt8)

/-- A listing of a directory: its files in some order, `none` when there is no
such directory. -/
def Listing (dir : Option (Dir Text UInt8)) (listing : Option (List DirEntry)) : Prop :=
  match dir with
  | none => listing = none
  | some dir => ∃ es : List (Sigma fun _ : Text => List UInt8), es.Perm dir.entries ∧
      listing = some (es.map fun e => ⟨some e.1, some e.2⟩)

/-- The loop of a reader: entries it passes over give `none`, an error ends it. -/
def readEntries {α : Type} (read : DirEntry → Except Fault (Option α)) :
    List DirEntry → Except Fault (List α)
  | [] => .ok []
  | e :: es =>
    match read e with
    | .error fault => .error fault
    | .ok a =>
      match readEntries read es with
      | .error fault => .error fault
      | .ok as => .ok (a.toList ++ as)

/-- A reader on a listing: a directory that does not exist has no files. -/
def readDir {α : Type} (read : DirEntry → Except Fault (Option α)) :
    Option (List DirEntry) → Except Fault (List α)
  | none => .ok []
  | some es => readEntries read es

variable {M : MonitorImpl} (S : Serial M)

/-- One file of `monitors/`. -/
def readChannelmonitor (e : DirEntry) : Except Fault (Option (ChannelMonitor M)) :=
  match checkFilename e.fileName with
  | .error fault => .error fault
  | .ok none => .ok none
  | .ok (some name) =>
    match parseMonitorFilename name with
    | .error fault => .error fault
    | .ok id =>
      match e.contents with
      | none => .error (.failed .unreadable)
      | some bytes =>
        match S.monitor.read bytes with
        | none => .error (.failed .undecodable)
        | some m => if m.fundingTxo = id then .ok (some m) else .error (.failed .wrongFile)

/-- `FilesystemPersister::read_channelmonitors`. -/
def readChannelmonitors (listing : Option (List DirEntry)) : Except Fault (List (ChannelMonitor M)) :=
  readDir (readChannelmonitor S) listing

/-- One file of `updates/`, with the outpoint of its name. -/
def readChannelmonitorUpdate (e : DirEntry) :
    Except Fault (Option (OutPoint × ChannelMonitorUpdate M)) :=
  match checkFilename e.fileName with
  | .error fault => .error fault
  | .ok none => .ok none
  | .ok (some name) =>
    match parseUpdateFilename name with
    | .error fault => .error fault
    | .ok id =>
      match e.contents with
      | none => .error (.failed .unreadable)
      | some bytes =>
        match S.update.read bytes with
        | none => .error (.failed .undecodable)
        | some u => .ok (some (id, u))

/-- The map from funding txids to their updates. -/
abbrev UpdateMap (M : MonitorImpl) := Txid → Option (List (ChannelMonitorUpdate M))

/-- One update is pushed to its txid's list; the output index goes unused. -/
def pushUpdate (map : UpdateMap M) (e : OutPoint × ChannelMonitorUpdate M) : UpdateMap M :=
  fun txid =>
    if txid = e.1.txid then some ((map txid).getD [] ++ [e.2]) else map txid

/-- `YourPersister::read_channelmonitor_updates`. -/
def readChannelmonitorUpdates (listing : Option (List DirEntry)) : Except Fault (UpdateMap M) :=
  match readDir (readChannelmonitorUpdate S) listing with
  | .error fault => .error fault
  | .ok es => .ok (es.foldl pushUpdate fun _ => none)

/-! ## The replay loop -/

/-- `sort_by` on the update number. -/
def sortUpdates (us : List (ChannelMonitorUpdate M)) : List (ChannelMonitorUpdate M) :=
  sortBy (fun u => u.updateId.toNat) us

/-- The updates the loop takes for a monitor. -/
def updatesFor (map : UpdateMap M) (m : ChannelMonitor M) : List (ChannelMonitorUpdate M) :=
  match map m.fundingTxo.txid with
  | none => []
  | some us => sortUpdates us

/-- The loop body: one monitor, its updates applied in order. -/
def replayUpdates (map : UpdateMap M) (m : ChannelMonitor M) : End (ChannelMonitor M) :=
  replay updateMonitor (updatesFor map m) m

/-- The loop over the monitors. -/
def replayMonitors (map : UpdateMap M) : List (ChannelMonitor M) → End (List (ChannelMonitor M))
  | [] => .done []
  | m :: ms =>
    match replayUpdates map m with
    | .panicked => .panicked
    | .stopped => .stopped
    | .done m' =>
      match replayMonitors map ms with
      | .panicked => .panicked
      | .stopped => .stopped
      | .done ms' => .done (m' :: ms')

/-- The calls of `update_monitor` the loop makes: the channel of the monitor, and
the update. -/
def replayCalls (map : UpdateMap M) :
    List (ChannelMonitor M) → List (OutPoint × ChannelMonitorUpdate M)
  | [] => []
  | m :: ms =>
    (calls updateMonitor (updatesFor map m) m).map (fun u => (m.fundingTxo, u)) ++
      match replayUpdates map m with
      | .done _ => replayCalls map ms
      | _ => []

/-- Step 7 of `start_ldk`: `done` when it goes on to step 8, with the monitors
rebuilt. -/
def readChannelMonitorState (monitors updates : Option (List DirEntry)) :
    End (List (ChannelMonitor M)) :=
  match readChannelmonitors S monitors with
  | .error _ => .panicked
  | .ok ms =>
    match readChannelmonitorUpdates S updates with
    | .error _ => .panicked
    | .ok map => replayMonitors map ms

/-! ## Listings -/

theorem exists_listing (dir : Option (Dir Text UInt8)) : ∃ listing, Listing dir listing := by
  cases dir with
  | none => exact ⟨none, rfl⟩
  | some dir => exact ⟨_, dir.entries, List.Perm.refl _, rfl⟩

/-- The loop succeeds on a file and on the rest. -/
theorem readEntries_cons_eq_ok {α : Type} {read : DirEntry → Except Fault (Option α)}
    {e : DirEntry} {es : List DirEntry} {as : List α} :
    readEntries read (e :: es) = .ok as ↔
      ∃ a as', read e = .ok a ∧ readEntries read es = .ok as' ∧ as = a.toList ++ as' := by
  rw [readEntries]
  cases read e with
  | error fault => simp
  | ok a =>
    cases readEntries read es with
    | error fault => simp
    | ok as' => simp [eq_comm]

/-- The loop of a reader on files each of which is passed over or gives an
object of its own name. -/
theorem readEntries_of_named {α : Type} {read : DirEntry → Except Fault (Option α)}
    (key : α → Text) (es : List (Sigma fun _ : Text => List UInt8))
    (h : ∀ e ∈ es, read ⟨some e.1, some e.2⟩ = .ok none ∨
      ∃ a, read ⟨some e.1, some e.2⟩ = .ok (some a) ∧ key a = e.1) :
    ∃ as, readEntries read (es.map fun e => ⟨some e.1, some e.2⟩) = .ok as ∧
      (as.map key).Sublist (es.map Sigma.fst) ∧
      ∀ a, a ∈ as ↔ ∃ e ∈ es, read ⟨some e.1, some e.2⟩ = .ok (some a) := by
  induction es with
  | nil => exact ⟨[], rfl, List.Sublist.slnil, by simp⟩
  | cons e es ih =>
    obtain ⟨as, hread, hsub, hmem⟩ := ih fun e' he' => h e' (List.mem_cons_of_mem _ he')
    rw [List.map_cons, readEntries, hread]
    rcases h e List.mem_cons_self with hnone | ⟨a, hsome, hkey⟩
    · refine ⟨as, by rw [hnone]; rfl, hsub.cons _, fun a => ?_⟩
      rw [hmem]
      simp [hnone]
    · refine ⟨a :: as, by rw [hsome]; rfl, ?_, fun a' => ?_⟩
      · rw [List.map_cons, hkey]
        exact hsub.cons_cons _
      · rw [List.mem_cons, hmem]
        simp [hsome, eq_comm]

/-- **A reader on any listing of a directory**: it succeeds, and returns each
object it finds once. -/
theorem readDir_of_named {α : Type} {read : DirEntry → Except Fault (Option α)} (key : α → Text)
    {d : PersistDisk} {p : StorePath} {listing : Option (List DirEntry)}
    (hl : Listing (d p) listing)
    (h : ∀ n c, look d p n = some c → read ⟨some n, some c⟩ = .ok none ∨
      ∃ a, read ⟨some n, some c⟩ = .ok (some a) ∧ key a = n) :
    ∃ as, readDir read listing = .ok as ∧ (as.map key).Nodup ∧
      ∀ a, a ∈ as ↔ ∃ n c, look d p n = some c ∧ read ⟨some n, some c⟩ = .ok (some a) := by
  cases hd : d p with
  | none =>
    rw [hd] at hl
    cases hl
    exact ⟨[], rfl, List.nodup_nil, by simp [look_of_none hd]⟩
  | some dir =>
    rw [hd] at hl
    obtain ⟨es, hperm, rfl⟩ := hl
    have hlook : ∀ n c, look d p n = some c ↔ (⟨n, c⟩ : Sigma fun _ : Text => List UInt8) ∈ es := by
      intro n c
      rw [look_of_some hd, hperm.mem_iff]
      exact AList.mem_lookup_iff
    obtain ⟨as, hread, hsub, hmem⟩ := readEntries_of_named key es fun e he =>
      h e.1 e.2 ((hlook _ _).mpr he)
    refine ⟨as, hread, hsub.nodup ?_, fun a => ?_⟩
    · exact (hperm.map Sigma.fst).nodup_iff.mpr dir.keys_nodup
    · rw [hmem]
      constructor
      · rintro ⟨e, he, hr⟩
        exact ⟨e.1, e.2, (hlook _ _).mpr he, hr⟩
      · rintro ⟨n, c, hn, hr⟩
        exact ⟨⟨n, c⟩, (hlook _ _).mp hn, hr⟩

/-- The same against what is stored: every file is passed over or gives an object that is stored,
and every object that is stored has a file. -/
theorem readDir_of_stored {α : Type} {read : DirEntry → Except Fault (Option α)} (key : α → Text)
    (Stored : α → Prop) {d : PersistDisk} {p : StorePath} {listing : Option (List DirEntry)}
    (hl : Listing (d p) listing)
    (hfile : ∀ n c, look d p n = some c → read ⟨some n, some c⟩ = .ok none ∨
      ∃ a, Stored a ∧ read ⟨some n, some c⟩ = .ok (some a) ∧ key a = n)
    (hstored : ∀ a, Stored a → ∃ n c, look d p n = some c ∧ read ⟨some n, some c⟩ = .ok (some a)) :
    ∃ as, readDir read listing = .ok as ∧ (as.map key).Nodup ∧ ∀ a, a ∈ as ↔ Stored a := by
  obtain ⟨as, hread, hnodup, hmem⟩ := readDir_of_named key hl
    fun n c hn => (hfile n c hn).imp id fun ⟨a, _, hr, hk⟩ => ⟨a, hr, hk⟩
  refine ⟨as, hread, hnodup, fun a => ?_⟩
  rw [hmem]
  constructor
  · rintro ⟨n, c, hn, hr⟩
    rcases hfile n c hn with hnone | ⟨a', ha', hr', -⟩
    · rw [hnone] at hr
      cases hr
    · rw [hr'] at hr
      cases hr
      exact ha'
  · exact hstored a

/-! ## Reading a stored disk -/

/-- The snapshots of a store, once each. -/
structure Snapshots (s : Store M) (ms : List (ChannelMonitor M)) : Prop where
  nodup : (ms.map ChannelMonitor.fundingTxo).Nodup
  mem_iff : ∀ m, m ∈ ms ↔ s.snap m.fundingTxo = some m

/-- The updates of a store with their channels, once each. -/
structure Updates (s : Store M) (es : List (OutPoint × ChannelMonitorUpdate M)) : Prop where
  nodup : (es.map fun e => (e.1, e.2.updateId)).Nodup
  mem_iff : ∀ o u, (o, u) ∈ es ↔ s.upd o u.updateId = some u

variable {S}

/-- Looking up a channel among the snapshots read. -/
theorem Snapshots.find?_eq {s : Store M} {ms : List (ChannelMonitor M)} (h : Snapshots s ms)
    (o : OutPoint) : ms.find? (fun m => m.fundingTxo = o) = s.snap o := by
  cases hfind : ms.find? (fun m => m.fundingTxo = o) with
  | some m =>
    have ho : m.fundingTxo = o := by simpa using List.find?_some hfind
    rw [← ho, (h.mem_iff m).mp (List.mem_of_find?_eq_some hfind)]
  | none =>
    cases hsnap : s.snap o with
    | none => rfl
    | some m =>
      have ho := s.snap_fundingTxo hsnap
      have hmem : m ∈ ms := (h.mem_iff m).mpr (by rw [ho]; exact hsnap)
      exact absurd (decide_eq_true ho) (List.find?_eq_none.mp hfind m hmem)

/-- The snapshots of a store with at most one channel. -/
theorem Snapshots.eq_toList {s : Store M} {ms : List (ChannelMonitor M)} (h : Snapshots s ms)
    {o : OutPoint} (honly : ∀ o', o' ≠ o → s.snap o' = none) : ms = (s.snap o).toList := by
  have hmem : ∀ m, m ∈ ms ↔ s.snap o = some m := by
    intro m
    rw [h.mem_iff]
    by_cases ho : m.fundingTxo = o
    · rw [ho]
    · rw [honly _ ho]
      exact ⟨fun hc => (nomatch hc), fun hsnap => absurd (s.snap_fundingTxo hsnap) ho⟩
  cases hsnap : s.snap o with
  | none =>
    refine List.eq_nil_iff_forall_not_mem.mpr fun m hm => ?_
    rw [hmem, hsnap] at hm
    cases hm
  | some m₀ =>
    refine List.perm_singleton.mp ((List.perm_ext_iff_of_nodup (List.Nodup.of_map _ h.nodup)
      (List.nodup_singleton _)).mpr fun m => ?_)
    rw [hmem, hsnap, List.mem_singleton, Option.some.injEq]
    exact eq_comm

/-- **The full monitors are read back, in any order of the files.** -/
theorem readChannelmonitors_stores {d : PersistDisk} {s : Store M} (hs : Stores S d s)
    {listing : Option (List DirEntry)} (hl : Listing (d .monitors) listing) :
    ∃ ms, readChannelmonitors S listing = .ok ms ∧ Snapshots s ms := by
  have hstored : ∀ o m, s.snap o = some m → readChannelmonitor S
      ⟨some (monitorFilename o), some (S.monitor.write m).flatten⟩ = .ok (some m) := by
    intro o m hm
    simp [readChannelmonitor, (wellformed_monitorFilename o).checkFilename_eq,
      parseMonitorFilename_monitorFilename, S.monitor.read_write, s.snap_fundingTxo hm]
  have hfile : ∀ n c, look d .monitors n = some c →
      readChannelmonitor S ⟨some n, some c⟩ = .ok none ∨
      ∃ m, s.snap m.fundingTxo = some m ∧ readChannelmonitor S ⟨some n, some c⟩ = .ok (some m) ∧
        monitorFilename m.fundingTxo = n := by
    intro n c hn
    rcases hs.monitors_name n (by rw [hn]; rfl) with hskip | ⟨o, rfl⟩
    · left
      have hcheck : checkFilename (some n) = .ok none := hskip
      simp [readChannelmonitor, hcheck]
    · right
      rw [hs.monitors] at hn
      obtain ⟨m, hm, rfl⟩ := Option.map_eq_some_iff.mp hn
      have ho := s.snap_fundingTxo hm
      exact ⟨m, by rw [ho]; exact hm, hstored o m hm, by rw [ho]⟩
  obtain ⟨ms, hread, hnodup, hmem⟩ := readDir_of_stored
    (fun m : ChannelMonitor M => monitorFilename m.fundingTxo)
    (fun m => s.snap m.fundingTxo = some m) hl hfile
    fun m hm => ⟨_, _, by rw [hs.monitors, hm]; rfl, hstored _ m hm⟩
  refine ⟨ms, hread, ⟨?_, hmem⟩⟩
  have hnames : (ms.map ChannelMonitor.fundingTxo).map monitorFilename =
      ms.map fun m => monitorFilename m.fundingTxo := by rw [List.map_map]; rfl
  exact List.Nodup.of_map monitorFilename (hnames ▸ hnodup)

/-- **The updates are read back, in any order of the files**, with their
channels. -/
theorem readDir_updates_stores {d : PersistDisk} {s : Store M} (hs : Stores S d s)
    {listing : Option (List DirEntry)} (hl : Listing (d .updates) listing) :
    ∃ es, readDir (readChannelmonitorUpdate S) listing = .ok es ∧ Updates s es := by
  have hstored : ∀ o i u, s.upd o i = some u → readChannelmonitorUpdate S
      ⟨some (updateFilename o i), some (S.update.write u).flatten⟩ = .ok (some (o, u)) := by
    intro o i u _
    simp [readChannelmonitorUpdate, (wellformed_updateFilename o i).checkFilename_eq,
      parseUpdateFilename_updateFilename, S.update.read_write]
  have hfile : ∀ n c, look d .updates n = some c →
      readChannelmonitorUpdate S ⟨some n, some c⟩ = .ok none ∨
      ∃ e, s.upd e.1 e.2.updateId = some e.2 ∧
        readChannelmonitorUpdate S ⟨some n, some c⟩ = .ok (some e) ∧
        updateFilename e.1 e.2.updateId = n := by
    intro n c hn
    rcases hs.updates_name n (by rw [hn]; rfl) with hskip | ⟨o, i, rfl⟩
    · left
      have hcheck : checkFilename (some n) = .ok none := hskip
      simp [readChannelmonitorUpdate, hcheck]
    · right
      rw [hs.updates] at hn
      obtain ⟨u, hu, rfl⟩ := Option.map_eq_some_iff.mp hn
      have hi := s.upd_updateId hu
      exact ⟨(o, u), by rw [hi]; exact hu, hstored o i u hu, by rw [hi]⟩
  obtain ⟨es, hread, hnodup, hmem⟩ := readDir_of_stored
    (fun e : OutPoint × ChannelMonitorUpdate M => updateFilename e.1 e.2.updateId)
    (fun e => s.upd e.1 e.2.updateId = some e.2) hl hfile
    fun e he => ⟨_, _, by rw [hs.updates, he]; rfl, hstored e.1 _ e.2 he⟩
  refine ⟨es, hread, ⟨?_, fun o u => hmem (o, u)⟩⟩
  have hnames : (es.map fun e => (e.1, e.2.updateId)).map (fun k => updateFilename k.1 k.2) =
      es.map fun e => updateFilename e.1 e.2.updateId := by rw [List.map_map]; rfl
  exact List.Nodup.of_map (fun k => updateFilename k.1 k.2) (hnames ▸ hnodup)

/-- The reader then groups them by txid. -/
theorem readChannelmonitorUpdates_of_readDir {listing : Option (List DirEntry)}
    {es : List (OutPoint × ChannelMonitorUpdate M)}
    (h : readDir (readChannelmonitorUpdate S) listing = .ok es) :
    readChannelmonitorUpdates S listing = .ok (es.foldl pushUpdate fun _ => none) := by
  rw [readChannelmonitorUpdates, h]

/-- The group of a txid: its updates in the order they were read, and none at all
when there is none. -/
theorem foldl_pushUpdate (es : List (OutPoint × ChannelMonitorUpdate M)) (map : UpdateMap M)
    (txid : Txid) :
    (es.foldl pushUpdate map) txid =
      if es.any (fun e => e.1.txid = txid) then
        some ((map txid).getD [] ++ (es.filter fun e => e.1.txid = txid).map Prod.snd)
      else map txid := by
  induction es generalizing map with
  | nil => rfl
  | cons e es ih =>
    rw [List.foldl_cons, ih]
    by_cases he : e.1.txid = txid
    · subst he
      by_cases hes : es.any (fun e' => decide (e'.1.txid = e.1.txid))
      · simp [pushUpdate, hes]
      · have hnil : es.filter (fun e' => decide (e'.1.txid = e.1.txid)) = [] := by
          simpa using hes
        simp [pushUpdate, hes, hnil]
    · have he' : ¬ txid = e.1.txid := fun h => he h.symm
      have hdec : decide (e.1.txid = txid) = false := decide_eq_false he
      simp only [pushUpdate, he', if_false, List.any_cons, hdec, Bool.false_or, List.filter_cons,
        Bool.false_eq_true]

/-- The group of a txid, empty if there is none. -/
theorem getD_foldl_pushUpdate (es : List (OutPoint × ChannelMonitorUpdate M)) (txid : Txid) :
    ((es.foldl pushUpdate fun _ => none) txid).getD [] =
      (es.filter fun e => e.1.txid = txid).map Prod.snd := by
  rw [foldl_pushUpdate]
  by_cases hes : es.any (fun e => decide (e.1.txid = txid))
  · rw [if_pos hes]
    rfl
  · have hnil : es.filter (fun e => decide (e.1.txid = txid)) = [] := by
      simpa using hes
    rw [if_neg hes, hnil]
    rfl

/-- **The updates the loop takes for a monitor**: those read under its txid, by
number. -/
theorem updatesFor_foldl (es : List (OutPoint × ChannelMonitorUpdate M)) (m : ChannelMonitor M) :
    updatesFor (es.foldl pushUpdate fun _ => none) m =
      sortUpdates ((es.filter fun e => e.1.txid = m.fundingTxo.txid).map Prod.snd) := by
  rw [← getD_foldl_pushUpdate, updatesFor]
  cases (es.foldl pushUpdate fun _ => none) m.fundingTxo.txid with
  | none => rw [Option.getD_none, sortUpdates, sortBy, List.mergeSort_nil]
  | some us => rfl

/-- **Step 7 on a stored disk** is the replay loop on the store's snapshots and
updates, each read once. -/
theorem readChannelMonitorState_stores {d : PersistDisk} {s : Store M} (hs : Stores S d s)
    {lm lu : Option (List DirEntry)} (hm : Listing (d .monitors) lm) (hu : Listing (d .updates) lu) :
    ∃ ms es, Snapshots s ms ∧ Updates s es ∧ readChannelmonitors S lm = .ok ms ∧
      readChannelmonitorUpdates S lu = .ok (es.foldl pushUpdate fun _ => none) ∧
      readChannelMonitorState S lm lu = replayMonitors (es.foldl pushUpdate fun _ => none) ms := by
  obtain ⟨ms, hms, hsnap⟩ := readChannelmonitors_stores hs hm
  obtain ⟨es, hes, hupd⟩ := readDir_updates_stores hs hu
  replace hes := readChannelmonitorUpdates_of_readDir hes
  exact ⟨ms, es, hsnap, hupd, hms, hes, by rw [readChannelMonitorState, hms, hes]⟩

/-! ## The loop, monitor by monitor -/

/-- If every monitor's replay gets through, so does the loop. -/
theorem replayMonitors_done {map : UpdateMap M} {ms : List (ChannelMonitor M)}
    (g : ChannelMonitor M → ChannelMonitor M) (h : ∀ m ∈ ms, replayUpdates map m = .done (g m)) :
    replayMonitors map ms = .done (ms.map g) := by
  induction ms with
  | nil => rfl
  | cons m ms ih =>
    rw [replayMonitors, h m List.mem_cons_self, ih fun m' hm' => h m' (List.mem_cons_of_mem _ hm')]
    rfl

/-- If the loop gets through, so did every monitor's replay. -/
theorem done_of_replayMonitors {map : UpdateMap M} {ms ms' : List (ChannelMonitor M)}
    (h : replayMonitors map ms = .done ms') :
    ∀ m ∈ ms, ∃ m', replayUpdates map m = .done m' := by
  induction ms generalizing ms' with
  | nil => intro m hm; cases hm
  | cons m ms ih =>
    rw [replayMonitors] at h
    split at h
    · cases h
    · cases h
    · rename_i m₁ h₁
      split at h
      · cases h
      · cases h
      · rename_i ms₁ hms₁
        intro m' hm'
        rcases List.mem_cons.mp hm' with rfl | hm'
        · exact ⟨m₁, h₁⟩
        · exact ih hms₁ m' hm'

end HiddenLightning
