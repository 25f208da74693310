import HiddenLightning.BufferedWrites
import HiddenLightning.GraphFile

/-! # Saving the graph and the scorer

`persist_network` and `persist_scorer` (`disk.rs`) write an object through a `BufWriter` to a
temporary file, and rename this over the old file if the writes succeeded.  The serialisation of
LDK is a parameter: the chunks that it gives to `write_all`.  The calls to the filesystem may
fail in any way (`SaveFaults`).

The writer is dropped before the rename, and what the drop could not write is not reported.
`failed_save_iff` says that this is the only way in which an incomplete file replaces the old one.
The temporary file is not emptied when it is opened; `exact_save_iff` says when what it held before
shows in the result.
-/
namespace HiddenLightning
open Numerals OpenFiles

/-- `DEFAULT_BUF_SIZE`. -/
def bufWriterCapacity : Nat := 8192

/-- How the calls of one save go: whether a call returns `Ok`, and the passes of the writer. -/
structure SaveFaults where
  opens : Bool
  device : Device
  renames : Bool
  removes : Bool

/-- The call that failed. -/
inductive SaveError where
  | open
  | write
  | rename
deriving DecidableEq

/-- The files after a save, what it returned, and the bytes the temporary file took from it. -/
structure SaveEnd where
  files : Files Text UInt8
  result : Except SaveError Unit
  written : List UInt8

/-- `tmp_path.push(".tmp")`. -/
def pushTmp (path : Text) : Text := path ++ ".tmp".toList

/-- `write_res.and_then(|_| fs::rename(&tmp_path, path))`. -/
def renameWritten (faults : SaveFaults) (path : Text) (written : Bool)
    (files : Files Text UInt8) : Except SaveError (Files Text UInt8) :=
  if !written then .error .write
  else if !faults.renames then .error .rename
  else
    match files.rename (pushTmp path) path with
    | some files => .ok files
    | none => .error .rename

/-- The body of the two functions, for the chunks that the object writes. -/
def persistObject (faults : SaveFaults) (path : Text) (chunks : List (List UInt8))
    (files : Files Text UInt8) : SaveEnd :=
  if !faults.opens then ⟨files, .error .open, []⟩
  else
    let opened := files.openFile (pushTmp path) false
    let wrote :=
      (BufWriter.new opened.1 opened.2).writeChunks faults.device bufWriterCapacity chunks
    -- the writer is a temporary of the statement, so it is dropped before the result is used
    let dropped := (wrote.1.drop faults.device).handle
    match renameWritten faults path wrote.2 dropped.files with
    | .ok files => ⟨files, .ok (), dropped.taken⟩
    | .error e =>
      ⟨if faults.removes then dropped.files.unlink (pushTmp path) else dropped.files, .error e,
        dropped.taken⟩

variable {NetworkGraph ProbabilisticScorer : Type}

/-- `persist_network`. -/
def persistNetwork (write : NetworkGraph → List (List UInt8)) (faults : SaveFaults) (path : Text)
    (networkGraph : NetworkGraph) (files : Files Text UInt8) : SaveEnd :=
  persistObject faults path (write networkGraph) files

/-- `persist_scorer`. -/
def persistScorer (write : ProbabilisticScorer → List (List UInt8)) (faults : SaveFaults)
    (path : Text) (scorer : ProbabilisticScorer) (files : Files Text UInt8) : SaveEnd :=
  persistObject faults path (write scorer) files

/-- What the writer passes on before it is dropped. -/
def writtenPasses (chunks : List (List UInt8)) : List (List UInt8) :=
  (layout bufWriterCapacity [] chunks).1

/-- What is left for the pass of the drop. -/
def leftForDrop (chunks : List (List UInt8)) : List UInt8 := (layout bufWriterCapacity [] chunks).2

/-- **The old file is kept unless the new one is complete.** -/
def SaveEnd.KeepsOld (before : Files Text UInt8) (path : Text) (serialised : List UInt8)
    (save : SaveEnd) : Prop :=
  (save.written ≠ serialised →
    (∃ e, save.result = .error e) ∧ save.files.content path = before.content path) ∧
  (save.result = .ok () → save.written = serialised)

/-- All calls succeed up to the drop, whose pass fails. -/
def SaveFaults.LoseInDrop (faults : SaveFaults) (chunks : List (List UInt8)) : Prop :=
  faults.opens ∧ faults.renames ∧ faults.device.TakesAll 0 (writtenPasses chunks) ∧
    faults.device.FailsOn (writtenPasses chunks).length (leftForDrop chunks)

instance (faults : SaveFaults) (chunks : List (List UInt8)) :
    Decidable (faults.LoseInDrop chunks) :=
  inferInstanceAs (Decidable (_ ∧ _ ∧ _ ∧ _))

/-- No write fails, the one of the drop included. -/
def SaveFaults.AllWritten (faults : SaveFaults) (chunks : List (List UInt8)) : Prop :=
  faults.device.TakesAll 0 (writtenPasses chunks ++ flushPasses (leftForDrop chunks))

instance (faults : SaveFaults) (chunks : List (List UInt8)) :
    Decidable (faults.AllWritten chunks) :=
  inferInstanceAs (Decidable (faults.device.TakesAll 0 _))

/-! ## One save -/

theorem pushTmp_ne (path : Text) : path ≠ pushTmp path := by
  intro h
  exact absurd (List.self_eq_append_right.mp h) (by decide)

variable (faults : SaveFaults) (path : Text) (chunks : List (List UInt8))
variable (files : Files Text UInt8)

/-- The chunks written, before the drop. -/
def saveWrites : BufWriter Text UInt8 × Bool :=
  (BufWriter.new (files.openFile (pushTmp path) false).1
    (files.openFile (pushTmp path) false).2).writeChunks faults.device bufWriterCapacity chunks

/-- The temporary file, after the drop. -/
def saveHandle : Handle Text UInt8 :=
  ((saveWrites faults path chunks files).1.drop faults.device).handle

theorem saveWrites_makes : BufWriter.Makes faults.device
    (BufWriter.new (files.openFile (pushTmp path) false).1 (files.openFile (pushTmp path) false).2)
    (saveWrites faults path chunks files) (writtenPasses chunks) (leftForDrop chunks) :=
  BufWriter.writeChunks_makes _ chunks

theorem writtenPasses_append (chunks : List (List UInt8)) :
    (writtenPasses chunks).flatten ++ leftForDrop chunks = chunks.flatten :=
  layout_flatten (Nat.zero_le _) chunks

theorem exists_saveHandle_eq_putAll : ∃ written, saveHandle faults path chunks files =
    (BufWriter.new (files.openFile (pushTmp path) false).1
      (files.openFile (pushTmp path) false).2).handle.putAll written := by
  obtain ⟨written, hwritten⟩ := (saveWrites_makes faults path chunks files).puts
  obtain ⟨last, hlast⟩ : ∃ last, saveHandle faults path chunks files = _ :=
    (saveWrites faults path chunks files).1.exists_drop_eq_putAll
  refine ⟨written ++ last, ?_⟩
  rw [hlast, hwritten, Handle.putAll_append]

theorem saveHandle_names : (saveHandle faults path chunks files).files.names (pushTmp path) =
    some (files.openFile (pushTmp path) false).2 := by
  obtain ⟨written, hwritten⟩ := exists_saveHandle_eq_putAll faults path chunks files
  rw [hwritten, Handle.putAll_names]
  exact files.names_openFile_self (pushTmp path) false

/-- Whatever fails, the temporary file holds what was written over what it held before. -/
theorem saveHandle_data : (saveHandle faults path chunks files).files.data
      (files.openFile (pushTmp path) false).2 =
    (saveHandle faults path chunks files).taken ++
      ((files.content (pushTmp path)).getD []).drop
        (saveHandle faults path chunks files).taken.length := by
  obtain ⟨written, hwritten⟩ := exists_saveHandle_eq_putAll faults path chunks files
  rw [hwritten]
  exact Handle.data_putAll _ (files.data_openFile (pushTmp path)) written

/-- The other files are as they were. -/
theorem saveHandle_content {other : Text} (hne : other ≠ pushTmp path) :
    (saveHandle faults path chunks files).files.content other = files.content other := by
  obtain ⟨written, hwritten⟩ := exists_saveHandle_eq_putAll faults path chunks files
  rw [hwritten]
  exact (Handle.content_putAll_of_ne _ (files.names_openFile_self (pushTmp path) false) hne
    written).trans (files.content_openFile_of_ne hne false)

/-- The rename is made if the writes before the drop succeeded. -/
theorem renameWritten_cases (written : Bool) {before : Files Text UInt8} {inode : Nat}
    (hnames : before.names (pushTmp path) = some inode) :
    ((written = true ∧ faults.renames = true) ∧
      ∃ after, renameWritten faults path written before = .ok after ∧
        after.content path = some (before.data inode)) ∨
    (¬ (written = true ∧ faults.renames = true) ∧
      ∃ e, renameWritten faults path written before = .error e) := by
  obtain ⟨after, hrename, -, hpath, hdata⟩ :=
    before.rename_of_some (pushTmp_ne path).symm hnames
  rw [renameWritten, hrename]
  by_cases hwritten : written = true
  · by_cases hrenames : faults.renames = true
    · refine Or.inl ⟨⟨hwritten, hrenames⟩, after, ?_, ?_⟩
      · rw [hwritten, hrenames]
        rfl
      · rw [Files.content, hpath, Option.map_some, hdata]
    · refine Or.inr ⟨fun h => hrenames h.2, .rename, ?_⟩
      rw [hwritten, Bool.not_eq_true _ |>.mp hrenames]
      rfl
  · refine Or.inr ⟨fun h => hwritten h.1, .write, ?_⟩
    rw [Bool.not_eq_true _ |>.mp hwritten]
    rfl

theorem persistObject_of_opens (hopens : faults.opens = true) :
    persistObject faults path chunks files =
      match renameWritten faults path (saveWrites faults path chunks files).2
        (saveHandle faults path chunks files).files with
      | .ok after => ⟨after, .ok (), (saveHandle faults path chunks files).taken⟩
      | .error e =>
        ⟨if faults.removes then (saveHandle faults path chunks files).files.unlink (pushTmp path)
          else (saveHandle faults path chunks files).files, .error e,
          (saveHandle faults path chunks files).taken⟩ := by
  rw [persistObject, hopens]
  rfl

/-- **What a save does**: it publishes the temporary file, or leaves the old file. -/
theorem persistObject_cases :
    ((faults.opens = true ∧ faults.renames = true ∧
        faults.device.TakesAll 0 (writtenPasses chunks)) ∧
      (persistObject faults path chunks files).result = .ok () ∧
      (persistObject faults path chunks files).written =
        (saveHandle faults path chunks files).taken ∧
      (persistObject faults path chunks files).files.content path =
        some ((saveHandle faults path chunks files).taken ++
          ((files.content (pushTmp path)).getD []).drop
            (saveHandle faults path chunks files).taken.length)) ∨
    (¬ (faults.opens = true ∧ faults.renames = true ∧
        faults.device.TakesAll 0 (writtenPasses chunks)) ∧
      (∃ e, (persistObject faults path chunks files).result = .error e) ∧
      (persistObject faults path chunks files).files.content path = files.content path) := by
  have hok : (saveWrites faults path chunks files).2 = true ↔
      faults.device.TakesAll 0 (writtenPasses chunks) :=
    (saveWrites_makes faults path chunks files).ok_iff
  by_cases hopens : faults.opens = true
  · rw [persistObject_of_opens _ _ _ _ hopens, and_iff_right hopens, ← hok]
    obtain ⟨hboth, after, hrenamed, hcontent⟩ | ⟨hnot, e, hfailed⟩ :=
      renameWritten_cases faults path (saveWrites faults path chunks files).2
        (saveHandle_names faults path chunks files)
    · rw [hrenamed]
      rw [saveHandle_data] at hcontent
      exact Or.inl ⟨hboth.symm, rfl, rfl, hcontent⟩
    · rw [hfailed]
      refine Or.inr ⟨fun h => hnot h.symm, ⟨e, rfl⟩, ?_⟩
      have hkept := saveHandle_content faults path chunks files (pushTmp_ne path)
      show Files.content (if faults.removes = true then _ else _) path = _
      split
      · exact (Files.content_unlink_of_ne _ (pushTmp_ne path)).trans hkept
      · exact hkept
  · refine Or.inr ⟨fun h => hopens h.1, ?_⟩
    rw [persistObject, Bool.not_eq_true _ |>.mp hopens]
    exact ⟨⟨.open, rfl⟩, rfl⟩

/-- When the writes before the drop succeed, the bytes are complete if the pass of the drop does
not fail. -/
theorem saveHandle_taken_iff (htakes : faults.device.TakesAll 0 (writtenPasses chunks)) :
    (saveHandle faults path chunks files).taken = chunks.flatten ↔
      ¬ faults.device.FailsOn (writtenPasses chunks).length (leftForDrop chunks) :=
  BufWriter.taken_drop_writeChunks_iff _ _ htakes

theorem persistObject_keepsOld_iff :
    (persistObject faults path chunks files).KeepsOld files path chunks.flatten ↔
      ¬ faults.LoseInDrop chunks := by
  rw [SaveFaults.LoseInDrop]
  obtain ⟨⟨hopens, hrenames, htakes⟩, hresult, hwritten, -⟩ | ⟨hnot, hresult, hcontent⟩ :=
    persistObject_cases faults path chunks files
  · have hcomplete : (persistObject faults path chunks files).written = chunks.flatten ↔ _ :=
      hwritten ▸ saveHandle_taken_iff faults path chunks files htakes
    constructor
    · rintro ⟨-, hok⟩ ⟨-, -, -, hfails⟩
      exact hcomplete.mp (hok hresult) hfails
    · intro hlose
      have hall := hcomplete.mpr fun hfails => hlose ⟨hopens, hrenames, htakes, hfails⟩
      exact ⟨fun hpart => absurd hall hpart, fun _ => hall⟩
  · refine iff_of_true ⟨fun _ => ⟨hresult, hcontent⟩, ?_⟩ ?_
    · intro hok
      obtain ⟨e, he⟩ := hresult
      rw [hok] at he
      cases he
    · rintro ⟨hopens, hrenames, htakes, -⟩
      exact hnot ⟨hopens, hrenames, htakes⟩

/-- **A failed save and the old file.**  For every graph and every scorer, whatever their
serialisation, for all files and every way in which the calls go: the old file is kept unless the
new one is complete, exactly if it is not the pass of the drop, and it alone, that fails. -/
theorem failed_save_iff (writeNetwork : NetworkGraph → List (List UInt8))
    (writeScorer : ProbabilisticScorer → List (List UInt8)) (faults : SaveFaults) (path : Text)
    (files : Files Text UInt8) :
    (∀ graph, (persistNetwork writeNetwork faults path graph files).KeepsOld files path
        (writeNetwork graph).flatten ↔ ¬ faults.LoseInDrop (writeNetwork graph)) ∧
    ∀ scorer, (persistScorer writeScorer faults path scorer files).KeepsOld files path
        (writeScorer scorer).flatten ↔ ¬ faults.LoseInDrop (writeScorer scorer) :=
  ⟨fun graph => persistObject_keepsOld_iff faults path (writeNetwork graph) files,
    fun scorer => persistObject_keepsOld_iff faults path (writeScorer scorer) files⟩

/-- What `NetworkGraph::write` writes for a graph without channels and nodes, with the time of the
last rapid gossip sync. -/
def emptyGraphChunks (timestamp : Option (List UInt8)) : List (List UInt8) :=
  -- the versions, the genesis hash, the numbers of channels and of nodes
  [[1], [1], List.replicate 32 0, List.replicate 8 0, List.replicate 8 0] ++
    match timestamp with
    | none => [[0]]
    | some seconds => [[6], [1], [4], seconds]

/-- What `ProbabilisticScorer::write` writes without a channel. -/
def emptyScorerChunks (_ : Unit) : List (List UInt8) := [[4], [0], [2], [0, 0]]

/-- A graph saved earlier. -/
def savedGraph : Files Text UInt8 :=
  (Files.empty.create networkGraph).setData 0 (emptyGraphChunks none).flatten

/-- The graph fits into the buffer, so all of it is left for the drop; the disk is full, and the
graph saved earlier is lost. -/
theorem failed_save_lost : ¬ (persistNetwork emptyGraphChunks ⟨true, fun _ => some 0, true, true⟩
    networkGraph none savedGraph).KeepsOld savedGraph networkGraph
    (emptyGraphChunks none).flatten := by
  intro hkeeps
  exact (persistObject_keepsOld_iff _ _ _ _).mp hkeeps (by decide)

/-! ## What the temporary file held before -/

theorem persistObject_exact_iff (hwritten : faults.AllWritten chunks)
    (hok : (persistObject faults path chunks files).result = .ok ()) :
    (persistObject faults path chunks files).files.content path = some chunks.flatten ↔
      ∀ before ∈ files.content (pushTmp path), before.length ≤ chunks.flatten.length := by
  rw [SaveFaults.AllWritten, Device.takesAll_append, takesAll_flushPasses, Nat.zero_add] at hwritten
  obtain ⟨htakes, hdrop⟩ := hwritten
  obtain ⟨-, -, -, hcontent⟩ | ⟨-, ⟨e, he⟩, -⟩ := persistObject_cases faults path chunks files
  · rw [hcontent, (saveHandle_taken_iff faults path chunks files htakes).mpr hdrop,
      Option.some_inj, List.append_right_eq_self, List.drop_eq_nil_iff]
    cases files.content (pushTmp path) with
    | none => simp
    | some before => simp
  · rw [hok] at he
    cases he

/-- **What a successful save leaves.**  For every graph and every scorer, for all files and every
way in which the calls go with no write failing: a save that returns `Ok` leaves exactly the
serialisation, exactly if the temporary file was not there or was not longer. -/
theorem exact_save_iff (writeNetwork : NetworkGraph → List (List UInt8))
    (writeScorer : ProbabilisticScorer → List (List UInt8)) (faults : SaveFaults) (path : Text)
    (files : Files Text UInt8) :
    (∀ graph, faults.AllWritten (writeNetwork graph) →
      (persistNetwork writeNetwork faults path graph files).result = .ok () →
      ((persistNetwork writeNetwork faults path graph files).files.content path =
          some (writeNetwork graph).flatten ↔
        ∀ before ∈ files.content (pushTmp path),
          before.length ≤ (writeNetwork graph).flatten.length)) ∧
    ∀ scorer, faults.AllWritten (writeScorer scorer) →
      (persistScorer writeScorer faults path scorer files).result = .ok () →
      ((persistScorer writeScorer faults path scorer files).files.content path =
          some (writeScorer scorer).flatten ↔
        ∀ before ∈ files.content (pushTmp path),
          before.length ≤ (writeScorer scorer).flatten.length) :=
  ⟨fun graph => persistObject_exact_iff faults path (writeNetwork graph) files,
    fun scorer => persistObject_exact_iff faults path (writeScorer scorer) files⟩

/-- No call fails. -/
def noFaults : SaveFaults := ⟨true, fun _ => none, true, true⟩

/-- A graph and a scorer are saved with no temporary file there. -/
theorem exact_save_fresh :
    (persistNetwork emptyGraphChunks noFaults networkGraph none savedGraph).files.content
      networkGraph = some (emptyGraphChunks none).flatten ∧
    (persistScorer emptyScorerChunks noFaults "scorer".toList () Files.empty).files.content
      "scorer".toList = some (emptyScorerChunks ()).flatten := by
  constructor
  · exact ((exact_save_iff emptyGraphChunks emptyScorerChunks noFaults networkGraph savedGraph).1
      none (by decide) (by decide)).mpr (by decide)
  · exact ((exact_save_iff emptyGraphChunks emptyScorerChunks noFaults "scorer".toList
      Files.empty).2 () (by decide) (by decide)).mpr (by decide)

/-- The temporary file of a save that was cut off before its rename. -/
def leftBehind : Files Text UInt8 :=
  (Files.empty.create (pushTmp networkGraph)).setData 0
    (emptyGraphChunks (some [0x62, 0, 0, 0])).flatten

/-- A shorter graph is saved after it, and is followed by its end. -/
theorem exact_save_mixed :
    noFaults.AllWritten (emptyGraphChunks none) ∧
    (persistNetwork emptyGraphChunks noFaults networkGraph none leftBehind).result = .ok () ∧
    (persistNetwork emptyGraphChunks noFaults networkGraph none leftBehind).files.content
      networkGraph = some ((emptyGraphChunks none).flatten ++ [1, 4, 0x62, 0, 0, 0]) ∧
    (persistNetwork emptyGraphChunks noFaults networkGraph none leftBehind).files.content
      networkGraph ≠ some (emptyGraphChunks none).flatten := by
  decide

/-! ## A save among those of the other saver -/

variable {G : Type} {write : G → List (List UInt8)} {s : Saves G}

/-- The steps of a call of `persist_network` in which nothing fails. -/
def persistNetworkSteps (graph : G) (passes : List (List UInt8)) : List (Saver × SaveAct G) :=
  (.persistNetwork, .call graph) ::
    (passes.map fun bytes => (.persistNetwork, .write bytes.length)) ++ [(.persistNetwork, .rename)]

/-- The passes of the writer are steps of the saver. -/
theorem Saves.run_putAll (s : Saves G) (serialise : G → List UInt8) (who : Saver)
    (h : Handle Text UInt8) {passes : List (List UInt8)}
    (hpasses : ∀ bytes ∈ passes, bytes ≠ []) (rest : List UInt8) (acts : List (Saver × SaveAct G)) :
    (s.goto who h.files (.writing h.inode h.taken.length (passes.flatten ++ rest))).run serialise
        ((passes.map fun bytes => (who, .write bytes.length)) ++ acts) =
      (s.goto who (h.putAll passes).files (.writing h.inode (h.putAll passes).taken.length
        rest)).run serialise acts := by
  induction passes generalizing h with
  | nil => rfl
  | cons bytes passes ih =>
    have hstep : (s.goto who h.files (.writing h.inode h.taken.length
        ((bytes :: passes).flatten ++ rest))).step serialise who (.write bytes.length) =
        some (s.goto who (h.put bytes).files (.writing (h.put bytes).inode
          (h.put bytes).taken.length (passes.flatten ++ rest))) := by
      have hpos : 0 < bytes.length := List.length_pos_of_ne_nil (hpasses bytes List.mem_cons_self)
      rw [Saves.step, Saves.goto_pc_self]
      simp [hpos, Handle.put, Saves.goto]
    rw [List.map_cons, List.cons_append, Saves.run_cons, hstep]
    exact ih (h.put bytes) fun bytes' hmem => hpasses bytes' (List.mem_cons_of_mem _ hmem)

theorem Saves.run_rename (s : Saves G) (serialise : G → List UInt8)
    {files renamed : Files Text UInt8} {inode offset : Nat}
    (h : files.rename (pushTmp networkGraph) networkGraph = some renamed) :
    (s.goto .persistNetwork files (.writing inode offset [])).run serialise
      [(.persistNetwork, .rename)] = some (s.goto .persistNetwork renamed .idle) := by
  have hrename : (s.goto .persistNetwork files (.writing inode offset [])).files.rename
      (Saver.tmp .persistNetwork) networkGraph = some renamed := h
  rw [Saves.run_cons]
  simp only [Saves.step, Saves.goto_pc_self, Saves.publish, hrename, Option.bind_some]
  simp [Saves.run, Saves.goto]

/-- Every pass takes some bytes, the one of the drop included. -/
theorem ne_nil_of_mem_passes (chunks : List (List UInt8)) :
    ∀ bytes ∈ writtenPasses chunks ++ flushPasses (leftForDrop chunks), bytes ≠ [] := by
  intro bytes hmem
  rcases List.mem_append.mp hmem with hmem | hmem
  · exact ne_nil_of_mem_layout (by decide) hmem
  · exact ne_nil_of_mem_flushPasses hmem

/-- All passes together take what was serialised. -/
theorem flatten_passes (chunks : List (List UInt8)) :
    (writtenPasses chunks ++ flushPasses (leftForDrop chunks)).flatten = chunks.flatten := by
  rw [List.flatten_append, flatten_flushPasses, writtenPasses_append]

theorem saveHandle_of_allWritten (hwritten : faults.AllWritten chunks) :
    saveHandle faults path chunks files =
      (BufWriter.new (files.openFile (pushTmp path) false).1
        (files.openFile (pushTmp path) false).2).handle.putAll
          (writtenPasses chunks ++ flushPasses (leftForDrop chunks)) := by
  rw [SaveFaults.AllWritten, Device.takesAll_append, takesAll_flushPasses, Nat.zero_add] at hwritten
  have hmakes := saveWrites_makes faults path chunks files
  have hwrote := hmakes.of_ok (hmakes.ok_iff.mpr hwritten.1)
  have hfails : ¬ faults.device.FailsOn (saveWrites faults path chunks files).1.handle.passes
      (saveWrites faults path chunks files).1.buf := by
    rw [hwrote, Handle.putAll_passes]
    exact (Nat.zero_add (writtenPasses chunks).length).symm ▸ hwritten.2
  rw [saveHandle, BufWriter.drop_of_not_failsOn _ hfails, hwrote, Handle.putAll_append]

/-- **A save in which nothing fails is a run of the saver**: the steps that `GraphFile` interleaves
with those of the other saver are what `persist_network` does. -/
theorem persistNetwork_eq_run {graph : G} (hidle : s.pc .persistNetwork = .idle)
    (hopens : faults.opens = true) (hrenames : faults.renames = true)
    (hwritten : faults.AllWritten (write graph)) :
    ∃ s', s.run (fun graph => (write graph).flatten) (persistNetworkSteps graph
        (writtenPasses (write graph) ++ flushPasses (leftForDrop (write graph)))) = some s' ∧
      s'.files = (persistNetwork write faults networkGraph graph s.files).files ∧
      s'.pc .persistNetwork = .idle := by
  have hhandle := saveHandle_of_allWritten faults networkGraph (write graph) s.files hwritten
  have hnames := saveHandle_names faults networkGraph (write graph) s.files
  -- the call opens the temporary file
  have hcall : s.step (fun graph => (write graph).flatten) .persistNetwork (.call graph) =
      some (Saves.goto { s with passed := graph :: s.passed } .persistNetwork
        (s.files.openFile (pushTmp networkGraph) false).1
        (.writing (s.files.openFile (pushTmp networkGraph) false).2 0 (write graph).flatten)) := by
    rw [Saves.step, if_pos hidle]
    rfl
  obtain ⟨renamed, hrename, -⟩ :=
    (saveHandle faults networkGraph (write graph) s.files).files.rename_of_some
      (pushTmp_ne networkGraph).symm hnames
  have hsaved : (persistNetwork write faults networkGraph graph s.files).files = renamed := by
    have hok : (saveWrites faults networkGraph (write graph) s.files).2 = true :=
      (saveWrites_makes faults networkGraph (write graph) s.files).ok_iff.mpr
        ((faults.device.takesAll_append _ _ _).mp hwritten).1
    rw [persistNetwork, persistObject_of_opens _ _ _ _ hopens, hok, renameWritten, hrenames,
      hrename]
    rfl
  refine ⟨Saves.goto { s with passed := graph :: s.passed } .persistNetwork renamed .idle, ?_,
    hsaved.symm, Saves.goto_pc_self ..⟩
  have hwrites := Saves.run_putAll { s with passed := graph :: s.passed }
    (fun graph => (write graph).flatten) .persistNetwork
    (BufWriter.new (s.files.openFile (pushTmp networkGraph) false).1
      (s.files.openFile (pushTmp networkGraph) false).2).handle
    (ne_nil_of_mem_passes (write graph)) [] [(.persistNetwork, .rename)]
  rw [List.append_nil, flatten_passes, ← hhandle] at hwrites
  rw [persistNetworkSteps, List.cons_append, Saves.run_cons, hcall]
  exact hwrites.trans (Saves.run_rename _ _ hrename)

end HiddenLightning
