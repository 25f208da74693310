import HiddenLightning.OpenFiles
import HiddenLightning.Numerals

/-! # Two savers of the network graph

A periodic task saves the network graph with `persist_network` (`disk.rs`), and the background
processor saves it with `write_to_file` (`lightning-persister`).  Both write the file
`network_graph.tmp` and rename it to `network_graph`, and nothing keeps them apart.
`write_to_file` empties a temporary file that is there, `persist_network` writes over it.

The model interleaves the filesystem steps of the two, for any number of calls each; a save is
written in any number of writes of any size.  I/O errors are left out, except for a rename whose
file the other one has renamed already.  As long as no call opens the temporary file between the
other's open and rename, `network_graph` is a whole save (`graph_file_whole`); otherwise it may be
a mixture of two (`graph_file_torn`).
-/
namespace HiddenLightning
open Numerals OpenFiles

/-! ## Names -/

/-- The name up to its extension, `file_stem`. -/
def fileStem (name : Text) : Text :=
  if name = "..".toList then name
  else
    match (name.reverse.dropWhile (· ≠ '.')).drop 1 with
    | [] => name
    | stem => stem.reverse

/-- `set_extension`. -/
def setExtension (name extension : Text) : Text := fileStem name ++ '.' :: extension

/-- The key that `persist_graph` uses, and the file that `persist_network` is given. -/
def networkGraph : Text := "network_graph".toList

/-- Who saves the graph. -/
inductive Saver where
  | persistNetwork
  | writeToFile
deriving DecidableEq

instance : Fintype Saver where
  elems := {.persistNetwork, .writeToFile}
  complete who := by cases who <;> decide

/-- The temporary file: `persist_network` pushes `.tmp`, `write_to_file` sets the extension. -/
def Saver.tmp : Saver → Text
  | .persistNetwork => networkGraph ++ ".tmp".toList
  | .writeToFile => setExtension networkGraph "tmp".toList

/-- `OpenOptions::new().write(true).create(true)` does not truncate, `File::create` does. -/
def Saver.truncates : Saver → Bool
  | .persistNetwork => false
  | .writeToFile => true

/-- The two temporary files are one. -/
theorem Saver.tmp_eq (who other : Saver) : who.tmp = other.tmp := by
  cases who <;> cases other <;> decide

theorem Saver.tmp_ne (who : Saver) : who.tmp ≠ networkGraph := by
  cases who <;> decide

/-! ## Steps -/

/-- Where a saver is in its call. -/
inductive SavePc where
  /-- No call is being made. -/
  | idle
  /-- The temporary file is open, with what is still to be written. -/
  | writing (inode offset : Nat) (left : List UInt8)
  /-- `sync_all` has returned, in `write_to_file`. -/
  | synced
  /-- The file was renamed, in `write_to_file`; the directory is to be synced. -/
  | renamed
  /-- There was no file to rename. -/
  | failed
deriving DecidableEq

/-- A filesystem step of a saver. -/
inductive SaveAct (G : Type) where
  | call (graph : G)
  | write (n : Nat)
  | sync
  | rename
  | syncDir
  | giveUp

variable {G : Type}

variable (G) in
/-- The files, the two savers, and the graphs they were called with. -/
structure Saves where
  files : Files Text UInt8
  pc : Saver → SavePc
  passed : List G

/-- The saver goes on. -/
def Saves.goto (s : Saves G) (who : Saver) (files : Files Text UInt8) (pc : SavePc) : Saves G :=
  { s with files := files, pc := Function.update s.pc who pc }

/-- `fs::rename` of the temporary file, and where the call goes on. -/
def Saves.publish (s : Saves G) (who : Saver) (next : SavePc) : Saves G :=
  match s.files.rename who.tmp networkGraph with
  | some files => s.goto who files next
  | none => s.goto who s.files .failed

/-- One step of a saver; `none` where its call is not at that step. -/
def Saves.step (serialise : G → List UInt8) (s : Saves G) (who : Saver) :
    SaveAct G → Option (Saves G)
  | .call graph =>
    if s.pc who = .idle then
      -- `create_dir_all` finds the data directory there
      let (files, inode) := s.files.openFile who.tmp who.truncates
      some { s.goto who files (.writing inode 0 (serialise graph)) with
        passed := graph :: s.passed }
    else none
  | .write n =>
    match s.pc who with
    | .writing inode offset left =>
      if 0 < n ∧ n ≤ left.length then
        some (s.goto who (s.files.write inode offset (left.take n))
          (.writing inode (offset + n) (left.drop n)))
      else none
    | _ => none
  | .sync =>
    match who, s.pc who with
    | .writeToFile, .writing _ _ [] => some (s.goto who s.files .synced)
    | _, _ => none
  | .rename =>
    match who, s.pc who with
    | .persistNetwork, .writing _ _ [] => some (s.publish who .idle)
    | .writeToFile, .synced => some (s.publish who .renamed)
    | _, _ => none
  | .syncDir => if s.pc who = .renamed then some (s.goto who s.files .idle) else none
  | .giveUp =>
    match who, s.pc who with
    -- `remove_file`, whose result is ignored
    | .persistNetwork, .failed => some (s.goto who (s.files.unlink who.tmp) .idle)
    | .writeToFile, .failed => some (s.goto who s.files .idle)
    | _, _ => none

/-- Any number of steps of the two savers. -/
def Saves.run (serialise : G → List UInt8) (s : Saves G) (acts : List (Saver × SaveAct G)) :
    Option (Saves G) :=
  acts.foldlM (fun s act => s.step serialise act.1 act.2) s

/-- Before the first call, with the graph an earlier process saved, if there is one. -/
def Saves.start (serialise : G → List UInt8) (earlier : Option G) : Saves G where
  files := match earlier with
    | none => Files.empty
    | some graph => ((Files.empty.create networkGraph).setData 0 (serialise graph))
  pc _ := .idle
  passed := earlier.toList

/-- **The file, if there is one, is the whole of a graph that was saved.** -/
def Saves.Whole (serialise : G → List UInt8) (s : Saves G) : Prop :=
  ∀ bytes, s.files.content networkGraph = some bytes → ∃ graph ∈ s.passed, bytes = serialise graph

/-- The saver has opened the temporary file and not renamed it yet. -/
def SavePc.Inside : SavePc → Prop
  | .writing _ _ _ => True
  | .synced => True
  | _ => False

/-- The step is not an open of the temporary file that the other saver is using. -/
def Saves.Apart (s : Saves G) : SaveAct G → Prop
  | .call _ => ∀ other, ¬ (s.pc other).Inside
  | _ => True

/-- No step of the run opens the temporary file while the other saver is using it. -/
def AllApart (serialise : G → List UInt8) : Saves G → List (Saver × SaveAct G) → Prop
  | _, [] => True
  | s, act :: acts => s.Apart act.2 ∧
      ∀ mid ∈ s.step serialise act.1 act.2, AllApart serialise mid acts

instance : DecidablePred SavePc.Inside
  | .writing _ _ _ | .synced => isTrue trivial
  | .idle | .renamed | .failed => isFalse id

instance (s : Saves G) : DecidablePred s.Apart
  | .call _ => inferInstanceAs (Decidable (∀ other, ¬ (s.pc other).Inside))
  | .write _ | .sync | .rename | .syncDir | .giveUp => isTrue trivial

instance AllApart.decidable (serialise : G → List UInt8) :
    (s : Saves G) → (acts : List (Saver × SaveAct G)) → Decidable (AllApart serialise s acts)
  | _, [] => isTrue trivial
  | s, act :: acts =>
    have := fun mid => AllApart.decidable serialise mid acts
    inferInstanceAs (Decidable (s.Apart act.2 ∧
      ∀ mid ∈ s.step serialise act.1 act.2, AllApart serialise mid acts))

/-! ## One saver at a time -/

variable {serialise : G → List UInt8} {s s' : Saves G} {who : Saver} {act : SaveAct G}

/-- What a saver knows of its temporary file. -/
def SavePc.Sound (serialise : G → List UInt8) (s : Saves G) (who : Saver) : SavePc → Prop
  | .writing inode offset left => s.files.names who.tmp = some inode ∧
      offset = (s.files.data inode).length ∧
      ∃ graph ∈ s.passed, s.files.data inode ++ left = serialise graph
  | .synced => ∃ inode, s.files.names who.tmp = some inode ∧
      ∃ graph ∈ s.passed, s.files.data inode = serialise graph
  | .failed => False
  | _ => True

/-- **The invariant while the savers keep apart**: at most one of them uses the temporary file,
which holds what this one has written, and there is none when no one uses it. -/
structure Saves.Orderly (serialise : G → List UInt8) (s : Saves G) : Prop where
  whole : s.Whole serialise
  sound : ∀ who, (s.pc who).Sound serialise s who
  alone : ∀ who other, (s.pc who).Inside → (s.pc other).Inside → other = who
  free : (∀ who, ¬ (s.pc who).Inside) → ∀ who : Saver, s.files.names who.tmp = none

theorem SavePc.Sound.of_not_inside {pc : SavePc} (h : pc.Sound serialise s who)
    (hinside : ¬ pc.Inside) : pc.Sound serialise s' who := by
  rcases pc with _ | _ | _ | _ | _
  · trivial
  · exact absurd trivial hinside
  · exact absurd trivial hinside
  · trivial
  · exact h

theorem Saves.goto_pc_self (s : Saves G) (who : Saver) (files : Files Text UInt8) (pc : SavePc) :
    (s.goto who files pc).pc who = pc :=
  Function.update_self ..

theorem Saves.goto_pc_of_ne (s : Saves G) {who other : Saver} (h : other ≠ who)
    (files : Files Text UInt8) (pc : SavePc) : (s.goto who files pc).pc other = s.pc other :=
  Function.update_of_ne h ..

/-- A step of the one saver that may be using the temporary file. -/
theorem Saves.Orderly.goto (h : s.Orderly serialise)
    (hothers : ∀ other, other ≠ who → ¬ (s.pc other).Inside)
    (hpc : ∀ other, other ≠ who → s'.pc other = s.pc other)
    (hwhole : s'.Whole serialise) (hsound : (s'.pc who).Sound serialise s' who)
    (hfree : ¬ (s'.pc who).Inside → s'.files.names who.tmp = none) : s'.Orderly serialise where
  whole := hwhole
  sound other := by
    by_cases heq : other = who
    · subst heq
      exact hsound
    · rw [hpc other heq]
      exact (h.sound other).of_not_inside (hothers other heq)
  alone a b ha hb := by
    have hwho : ∀ c, (s'.pc c).Inside → c = who := by
      intro c hc
      by_contra hne
      rw [hpc c hne] at hc
      exact hothers c hne hc
    rw [hwho a ha, hwho b hb]
  free hnone other := by
    rw [other.tmp_eq who]
    exact hfree (hnone who)

/-- The others are not using the temporary file while this one is. -/
theorem Saves.Orderly.others (h : s.Orderly serialise) (hinside : (s.pc who).Inside)
    {other : Saver} (hne : other ≠ who) : ¬ (s.pc other).Inside :=
  fun hother => hne (h.alone who other hinside hother)

theorem Saves.Whole.of_content (h : s.Whole serialise)
    (hcontent : s'.files.content networkGraph = s.files.content networkGraph)
    (hpassed : ∀ graph ∈ s.passed, graph ∈ s'.passed) : s'.Whole serialise := by
  intro bytes hbytes
  rw [hcontent] at hbytes
  obtain ⟨graph, hmem, heq⟩ := h bytes hbytes
  exact ⟨graph, hpassed graph hmem, heq⟩

/-- The temporary file becomes the file, when it is whole. -/
theorem Saves.Orderly.publish (h : s.Orderly serialise) (hinside : (s.pc who).Inside) {inode : Nat}
    (hnames : s.files.names who.tmp = some inode) {graph : G} (hgraph : graph ∈ s.passed)
    (hdata : s.files.data inode = serialise graph) {next : SavePc}
    (hsound : ∀ s' : Saves G, next.Sound serialise s' who) :
    (s.publish who next).Orderly serialise := by
  obtain ⟨files, hrename, htmp, hgraphName, hsame⟩ := s.files.rename_of_some who.tmp_ne hnames
  have heq : s.publish who next = s.goto who files next := by
    rw [Saves.publish, hrename]
  rw [heq]
  refine h.goto (fun other hne => h.others hinside hne)
    (fun other hne => s.goto_pc_of_ne hne files next) ?_ ?_ (fun _ => htmp)
  · intro bytes hbytes
    refine ⟨graph, hgraph, ?_⟩
    have hcontent : files.content networkGraph = some (serialise graph) := by
      rw [Files.content, hgraphName, Option.map_some, hsame, hdata]
    exact Option.some.inj (hbytes.symm.trans hcontent)
  · rw [Saves.goto_pc_self]
    exact hsound _

/-! ### What a step needs -/

theorem Saves.step_call {graph : G} (h : s.step serialise who (.call graph) = some s') :
    s'.files = (s.files.openFile who.tmp who.truncates).1 ∧
      s'.pc = Function.update s.pc who
        (.writing (s.files.openFile who.tmp who.truncates).2 0 (serialise graph)) ∧
      s'.passed = graph :: s.passed := by
  rw [Saves.step] at h
  split at h
  · cases h
    exact ⟨rfl, rfl, rfl⟩
  · cases h

theorem Saves.step_write {n : Nat} (h : s.step serialise who (.write n) = some s') :
    ∃ inode offset left, s.pc who = .writing inode offset left ∧ n ≤ left.length ∧
      s' = s.goto who (s.files.write inode offset (left.take n))
        (.writing inode (offset + n) (left.drop n)) := by
  rw [Saves.step] at h
  split at h
  · rename_i inode offset left hpc
    split at h
    · rename_i hn
      exact ⟨inode, offset, left, hpc, hn.2, (Option.some.inj h).symm⟩
    · cases h
  · cases h

theorem Saves.step_sync (h : s.step serialise who .sync = some s') :
    ∃ inode offset, s.pc who = .writing inode offset [] ∧ s' = s.goto who s.files .synced := by
  dsimp only [Saves.step] at h
  split at h
  · rename_i inode offset hpc
    exact ⟨inode, offset, hpc, (Option.some.inj h).symm⟩
  · cases h

theorem Saves.step_rename (h : s.step serialise who .rename = some s') :
    (∃ inode offset, s.pc who = .writing inode offset [] ∧ s' = s.publish who .idle) ∨
      (s.pc who = .synced ∧ s' = s.publish who .renamed) := by
  dsimp only [Saves.step] at h
  split at h
  · rename_i inode offset hpc
    exact Or.inl ⟨inode, offset, hpc, (Option.some.inj h).symm⟩
  · rename_i hpc
    exact Or.inr ⟨hpc, (Option.some.inj h).symm⟩
  · cases h

theorem Saves.step_giveUp (h : s.step serialise who .giveUp = some s') : s.pc who = .failed := by
  dsimp only [Saves.step] at h
  split at h
  · assumption
  · assumption
  · cases h

/-! ### What it keeps -/

/-- The temporary file is opened, when there is none. -/
theorem Saves.Orderly.call (h : s.Orderly serialise) {graph : G} (hapart : s.Apart (.call graph))
    (hstep : s.step serialise who (.call graph) = some s') : s'.Orderly serialise := by
  obtain ⟨hfiles, hpc, hpassed⟩ := Saves.step_call hstep
  have hnone := h.free hapart who
  have hempty := s.files.data_openFile_of_none hnone who.truncates
  have hself : s'.pc who = .writing (s.files.openFile who.tmp who.truncates).2 0
      (serialise graph) := by
    rw [hpc, Function.update_self]
  refine h.goto (fun other (_ : other ≠ who) => hapart other) ?_ (h.whole.of_content ?_ ?_) ?_ ?_
  · intro other hne
    rw [hpc, Function.update_of_ne hne]
  · rw [hfiles]
    exact s.files.content_openFile_of_ne (Ne.symm who.tmp_ne) who.truncates
  · intro graph' hgraph'
    rw [hpassed]
    exact List.mem_cons_of_mem _ hgraph'
  · rw [hself]
    refine ⟨?_, ?_, graph, ?_, ?_⟩
    · rw [hfiles]
      exact s.files.names_openFile_self who.tmp who.truncates
    · rw [hfiles, hempty]
      rfl
    · rw [hpassed]
      exact List.mem_cons_self
    · rw [hfiles, hempty]
      rfl
  · intro hout
    rw [hself] at hout
    exact absurd trivial hout

/-- More of the graph goes to the end of the temporary file. -/
theorem Saves.Orderly.write (h : s.Orderly serialise) {n : Nat}
    (hstep : s.step serialise who (.write n) = some s') : s'.Orderly serialise := by
  obtain ⟨inode, offset, left, hpc, hn, rfl⟩ := Saves.step_write hstep
  have hsound := h.sound who
  rw [hpc] at hsound
  obtain ⟨hnames, hoffset, graph, hgraph, hdata⟩ := hsound
  have hinside : (s.pc who).Inside := by
    rw [hpc]
    trivial
  obtain ⟨hlength, hrest⟩ := s.files.data_write_take hoffset hdata hn
  refine h.goto (fun other hne => h.others hinside hne)
    (fun other hne => s.goto_pc_of_ne hne _ _) (h.whole.of_content ?_ fun _ => id) ?_ ?_
  · exact s.files.content_write_of_ne hnames (Ne.symm who.tmp_ne) offset (left.take n)
  · rw [Saves.goto_pc_self]
    exact ⟨hnames, hlength, graph, hgraph, hrest⟩
  · intro hout
    rw [Saves.goto_pc_self] at hout
    exact absurd trivial hout

/-- `sync_all` changes nothing that is seen. -/
theorem Saves.Orderly.sync (h : s.Orderly serialise)
    (hstep : s.step serialise who .sync = some s') : s'.Orderly serialise := by
  obtain ⟨inode, offset, hpc, rfl⟩ := Saves.step_sync hstep
  have hsound := h.sound who
  rw [hpc] at hsound
  obtain ⟨hnames, -, graph, hgraph, hdata⟩ := hsound
  have hinside : (s.pc who).Inside := by
    rw [hpc]
    trivial
  refine h.goto (fun other hne => h.others hinside hne)
    (fun other hne => s.goto_pc_of_ne hne _ _) h.whole ?_ ?_
  · rw [Saves.goto_pc_self]
    exact ⟨inode, hnames, graph, hgraph, (List.append_nil _).symm.trans hdata⟩
  · intro hout
    rw [Saves.goto_pc_self] at hout
    exact absurd trivial hout

/-- What is renamed is whole. -/
theorem Saves.Orderly.rename (h : s.Orderly serialise)
    (hstep : s.step serialise who .rename = some s') : s'.Orderly serialise := by
  have hsound := h.sound who
  -- `persist_network` renames when all is written, `write_to_file` when it is synced as well
  obtain ⟨inode, offset, hpc, rfl⟩ | ⟨hpc, rfl⟩ := Saves.step_rename hstep
  · rw [hpc] at hsound
    obtain ⟨hnames, -, graph, hgraph, hdata⟩ := hsound
    rw [List.append_nil] at hdata
    have hinside : (s.pc who).Inside := by
      rw [hpc]
      trivial
    exact h.publish hinside hnames hgraph hdata fun _ => trivial
  · rw [hpc] at hsound
    obtain ⟨inode, hnames, graph, hgraph, hdata⟩ := hsound
    have hinside : (s.pc who).Inside := by
      rw [hpc]
      trivial
    exact h.publish hinside hnames hgraph hdata fun _ => trivial

/-- The directory is synced outside the part that is shared. -/
theorem Saves.Orderly.syncDir (h : s.Orderly serialise)
    (hstep : s.step serialise who .syncDir = some s') : s'.Orderly serialise := by
  rw [Saves.step] at hstep
  split at hstep
  · rename_i hpc
    cases hstep
    -- the other saver may be using the temporary file meanwhile
    have hinside : ∀ other, ((s.goto who s.files .idle).pc other).Inside ↔
        (s.pc other).Inside := by
      intro other
      by_cases heq : other = who
      · subst heq
        rw [Saves.goto_pc_self, hpc]
        exact Iff.rfl
      · rw [Saves.goto_pc_of_ne s heq]
    refine ⟨h.whole, ?_, ?_, ?_⟩
    · intro other
      by_cases heq : other = who
      · subst heq
        rw [Saves.goto_pc_self]
        trivial
      · rw [Saves.goto_pc_of_ne s heq]
        exact h.sound other
    · intro a b ha hb
      exact h.alone a b ((hinside a).mp ha) ((hinside b).mp hb)
    · intro hnone other
      exact h.free (fun c hc => hnone c ((hinside c).mpr hc)) other
  · cases hstep

/-- **Every step of savers that keep apart keeps the file whole.** -/
theorem Saves.Orderly.step (h : s.Orderly serialise) (hapart : s.Apart act)
    (hstep : s.step serialise who act = some s') : s'.Orderly serialise := by
  cases act with
  | call graph => exact h.call hapart hstep
  | write n => exact h.write hstep
  | sync => exact h.sync hstep
  | rename => exact h.rename hstep
  | syncDir => exact h.syncDir hstep
  | giveUp =>
    -- no rename has failed
    have hsound := h.sound who
    rw [Saves.step_giveUp hstep] at hsound
    exact hsound.elim

theorem Saves.run_cons (serialise : G → List UInt8) (s : Saves G) (act : Saver × SaveAct G)
    (acts : List (Saver × SaveAct G)) : s.run serialise (act :: acts) =
      (s.step serialise act.1 act.2).bind fun mid => mid.run serialise acts := rfl

theorem Saves.Orderly.run {acts : List (Saver × SaveAct G)} (h : s.Orderly serialise)
    (hapart : AllApart serialise s acts) (hrun : s.run serialise acts = some s') :
    s'.Orderly serialise := by
  -- the condition goes along with the run
  induction acts generalizing s with
  | nil =>
    cases hrun
    exact h
  | cons act acts ih =>
    rw [Saves.run_cons] at hrun
    obtain ⟨mid, hstep, hrest⟩ := Option.bind_eq_some_iff.mp hrun
    exact ih (h.step hapart.1 hstep) (hapart.2 mid hstep) hrest

theorem Saves.orderly_start (serialise : G → List UInt8) (earlier : Option G) :
    (Saves.start serialise earlier).Orderly serialise where
  whole := by
    intro bytes hbytes
    rcases earlier with _ | graph
    · cases hbytes
    · have hcontent : (Saves.start serialise (some graph)).files.content networkGraph =
          some (serialise graph) := by
        simp [Saves.start, Files.content, Files.create, Files.setData, Files.empty]
      rw [hcontent] at hbytes
      cases hbytes
      exact ⟨graph, List.mem_singleton_self _, rfl⟩
  sound _ := trivial
  alone _ _ h := h.elim
  free := by
    intro _ who
    rcases earlier with _ | graph
    · rfl
    · show Function.update (fun _ => none) networkGraph (some 0) who.tmp = none
      rw [Function.update_of_ne who.tmp_ne]

/-- **Savers that keep apart publish whole files.**  For any number of calls of the two savers
and every order of their filesystem steps in which no call opens the temporary file between the
other's open and rename: in every state reached, the file, if there is one, is the whole of a
graph that was saved. -/
theorem graph_file_whole (serialise : G → List UInt8) (earlier : Option G)
    (acts : List (Saver × SaveAct G))
    (hapart : AllApart serialise (Saves.start serialise earlier) acts) {s : Saves G}
    (hrun : (Saves.start serialise earlier).run serialise acts = some s) : s.Whole serialise :=
  ((Saves.orderly_start serialise earlier).run hapart hrun).whole

/-! ## Two orders -/

/-- A save with one writer after the other. -/
def oneAfterTheOther : List (Saver × SaveAct (List UInt8)) :=
  [(.writeToFile, .call [1, 2, 3]), (.writeToFile, .write 2), (.writeToFile, .write 1),
    (.writeToFile, .sync), (.writeToFile, .rename), (.persistNetwork, .call [4]),
    (.writeToFile, .syncDir), (.persistNetwork, .write 1), (.persistNetwork, .rename)]

/-- `persist_network` opens the file that `write_to_file` has just written. -/
def oneInTheOther : List (Saver × SaveAct (List UInt8)) :=
  [(.writeToFile, .call [1, 2, 3]), (.writeToFile, .write 3), (.persistNetwork, .call [4]),
    (.persistNetwork, .write 1), (.writeToFile, .sync), (.writeToFile, .rename)]

/-- The second save is published whole. -/
theorem graph_file_whole_oneAfterTheOther :
    AllApart id (Saves.start id none) oneAfterTheOther ∧
    ∃ s, (Saves.start id none).run id oneAfterTheOther = some s ∧
      s.files.content networkGraph = some [4] ∧ s.Whole id := by
  have hapart : AllApart id (Saves.start id none) oneAfterTheOther := by decide
  refine ⟨hapart, _, rfl, by decide, ?_⟩
  exact graph_file_whole id none oneAfterTheOther hapart rfl

/-- The first byte of one save is followed by the rest of the other. -/
theorem graph_file_torn : ∃ s, (Saves.start id none).run id oneInTheOther = some s ∧
    s.files.content networkGraph = some [4, 2, 3] ∧ ¬ s.Whole id := by
  have hpassed : ∀ s, (Saves.start id none).run id oneInTheOther = some s →
      s.files.content networkGraph = some [4, 2, 3] ∧ s.passed = [[4], [1, 2, 3]] := by
    intro s hrun
    cases hrun
    decide
  refine ⟨_, rfl, (hpassed _ rfl).1, ?_⟩
  -- neither graph is `[4, 2, 3]`
  intro hwhole
  obtain ⟨graph, hgraph, heq⟩ := hwhole _ (hpassed _ rfl).1
  rw [(hpassed _ rfl).2, ← id_eq (a := graph), ← heq] at hgraph
  revert hgraph
  decide

end HiddenLightning
