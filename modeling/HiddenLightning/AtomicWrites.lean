import HiddenLightning.DurableFiles
import HiddenLightning.CrashPoints

/-! # Writing a file so that it survives a crash

`write_to_file` (`disk.rs`) writes a temporary file, syncs it, renames it over the file and syncs
the directory, with the aim that after a crash the file is the old one or the new one, and the new
one once the call has returned.  Here every step may fail, and a crash may come after every step
and loses what was not synced (`DurableFiles`).  Names are those within the directory, which is
there already.

The result of the last `fsync` is not looked at.  `write_to_file_durable` says that all is as
intended in every run in which this call does not fail; the first part, that nothing but the old
file or the new one is ever found, does not need it (`WriteRun.Sound`).  `survives_prefix`
connects this with the crashes of `CrashPoints`, which cut a call off between two steps and may
damage temporary files only.
-/
namespace HiddenLightning
open Numerals OpenFiles
open FileStore (look)

/-! ## Steps -/

/-- The call that failed. -/
inductive WriteError where
  | createDir
  | create
  | write
  | sync
  | rename
  | openDir
deriving DecidableEq

/-- Where the call is. -/
inductive WritePc where
  | createDir
  | create
  /-- The temporary file is open, with what is still to be written. -/
  | write (inode offset : Nat) (left : List UInt8)
  | rename
  | openDir
  | syncDir
  | returned (result : Except WriteError Unit)
deriving DecidableEq

/-- The next call to the filesystem succeeds, or writes some bytes, or fails. -/
inductive WriteAct where
  | succeed
  | write (n : Nat)
  | fail
deriving DecidableEq

/-- The disk and the place in `write_to_file`. -/
structure WriteRun where
  disk : Disk Text UInt8
  pc : WritePc

/-- One step of `write_to_file`, for the bytes `data` writes; `none` where there is no such step. -/
def WriteRun.step (filename : Text) (data : List UInt8) (s : WriteRun) :
    WriteAct → Option WriteRun
  | .succeed =>
    match s.pc with
    | .createDir => some ⟨s.disk, .create⟩
    | .create =>
      some ⟨s.disk.create (tmpFilename filename),
        .write (s.disk.files.openFile (tmpFilename filename) true).2 0 data⟩
    | .write inode _ left =>
      -- `sync_all`, when everything is written
      if left = [] then some ⟨s.disk.sync inode, .rename⟩ else none
    | .rename =>
      match s.disk.rename (tmpFilename filename) filename with
      | some disk => some ⟨disk, .openDir⟩
      | none => some ⟨s.disk, .returned (.error .rename)⟩
    | .openDir => some ⟨s.disk, .syncDir⟩
    | .syncDir => some ⟨s.disk.syncDir, .returned (.ok ())⟩
    | .returned _ => none
  | .write n =>
    match s.pc with
    | .write inode offset left =>
      if 0 < n ∧ n ≤ left.length then
        some ⟨s.disk.write inode offset (left.take n), .write inode (offset + n) (left.drop n)⟩
      else none
    | _ => none
  | .fail =>
    match s.pc with
    | .createDir => some ⟨s.disk, .returned (.error .createDir)⟩
    | .create => some ⟨s.disk, .returned (.error .create)⟩
    | .write _ _ left =>
      some ⟨s.disk, .returned (.error (if left = [] then .sync else .write))⟩
    | .rename => some ⟨s.disk, .returned (.error .rename)⟩
    | .openDir => some ⟨s.disk, .returned (.error .openDir)⟩
    -- the result of `libc::fsync` is not looked at
    | .syncDir => some ⟨s.disk, .returned (.ok ())⟩
    | .returned _ => none

/-- Any number of steps. -/
def WriteRun.run (filename : Text) (data : List UInt8) (s : WriteRun) (acts : List WriteAct) :
    Option WriteRun :=
  acts.foldlM (fun s act => s.step filename data act) s

/-- The error came before the rename. -/
def WriteError.BeforeRename (e : WriteError) : Prop := e ≠ .openDir

instance : DecidablePred WriteError.BeforeRename :=
  fun e => inferInstanceAs (Decidable (e ≠ .openDir))

/-- **What is found after a crash**, for a call that began on the disk `before`. -/
structure WriteRun.Atomic (before : Disk Text UInt8) (filename : Text) (data : List UInt8)
    (s : WriteRun) (after : Text → Option (List UInt8)) : Prop where
  old_or_new : after filename = before.files.content filename ∨ after filename = some data
  new_of_ok : s.pc = .returned (.ok ()) → after filename = some data
  old_of_error : ∀ e, s.pc = .returned (.error e) → e.BeforeRename →
    after filename = before.files.content filename
  /-- Something else is found under the temporary name only. -/
  others : ∀ other, other ≠ filename → other ≠ tmpFilename filename → before.Durable other →
    after other = before.files.content other

/-- The step is not a failure of the last `fsync`. -/
def WriteRun.Synced (s : WriteRun) (act : WriteAct) : Prop := s.pc = .syncDir → act ≠ .fail

/-- The last `fsync` does not fail in the run. -/
def AllSynced (filename : Text) (data : List UInt8) : WriteRun → List WriteAct → Prop
  | _, [] => True
  | s, act :: acts => s.Synced act ∧
      ∀ mid ∈ s.step filename data act, AllSynced filename data mid acts

instance (s : WriteRun) (act : WriteAct) : Decidable (s.Synced act) :=
  inferInstanceAs (Decidable (s.pc = .syncDir → act ≠ .fail))

instance AllSynced.decidable (filename : Text) (data : List UInt8) :
    (s : WriteRun) → (acts : List WriteAct) → Decidable (AllSynced filename data s acts)
  | _, [] => isTrue trivial
  | s, act :: acts =>
    have := fun mid => AllSynced.decidable filename data mid acts
    inferInstanceAs (Decidable (s.Synced act ∧
      ∀ mid ∈ s.step filename data act, AllSynced filename data mid acts))

/-! ## What every step keeps -/

variable {before : Disk Text UInt8} {filename : Text} {data : List UInt8}

/-- The name is durable, with the content it had. -/
structure Kept (before d : Disk Text UInt8) (name : Text) : Prop where
  durable : d.Durable name
  content : d.files.content name = before.files.content name

namespace Kept

variable {d d' : Disk Text UInt8} {name : Text}

theorem create (h : Kept before d name) (hne : name ≠ tmpFilename filename) :
    Kept before (d.create (tmpFilename filename)) name :=
  ⟨h.durable.create hne, (Disk.content_create_of_ne hne).trans h.content⟩

theorem write (h : Kept before d name) (hne : name ≠ tmpFilename filename) {inode : Nat}
    (hinode : d.files.names (tmpFilename filename) = some inode) (offset : Nat)
    (bytes : List UInt8) : Kept before (d.write inode offset bytes) name :=
  ⟨h.durable.write hinode hne offset bytes,
    (d.files.content_write_of_ne hinode hne offset bytes).trans h.content⟩

theorem sync (h : Kept before d name) (inode : Nat) : Kept before (d.sync inode) name :=
  ⟨h.durable.sync inode, h.content⟩

theorem rename (h : Kept before d name) (hne : name ≠ tmpFilename filename)
    (hname : name ≠ filename) (hrename : d.rename (tmpFilename filename) filename = some d') :
    Kept before d' name :=
  ⟨(h.durable.rename hrename hne hname).1,
    (h.durable.rename hrename hne hname).2.trans h.content⟩

theorem syncDir (h : Kept before d name) : Kept before d.syncDir name :=
  ⟨h.durable.syncDir, h.content⟩

/-- Only the content it had can be found after a crash. -/
theorem eq_content (h : Kept before d name) {content : Option (List UInt8)}
    (hafter : d.MayHold name content) : content = before.files.content name :=
  (h.durable.eq_content hafter).trans h.content

end Kept

/-- What the call knows at its place.  `synced` says that the last `fsync` did not fail. -/
def WritePc.Sound (before : Disk Text UInt8) (filename : Text) (data : List UInt8) (synced : Prop)
    (d : Disk Text UInt8) : WritePc → Prop
  | .createDir | .create => Kept before d filename
  | .write inode offset left => Kept before d filename ∧
      d.files.names (tmpFilename filename) = some inode ∧
      offset = (d.files.data inode).length ∧ d.files.data inode ++ left = data
  | .rename => Kept before d filename ∧ ∃ inode,
      d.files.names (tmpFilename filename) = some inode ∧ d.dirty inode = false ∧
      d.files.data inode = data
  | .openDir | .syncDir => d.Replaced filename (before.files.content filename) data
  | .returned (.ok ()) => d.Replaced filename (before.files.content filename) data ∧
      (synced → d.Durable filename)
  | .returned (.error e) => (e.BeforeRename → Kept before d filename) ∧
      (¬ e.BeforeRename → d.Replaced filename (before.files.content filename) data)

/-- **The invariant**: the other files are as they were, and the call knows what it has done. -/
structure WriteRun.Sound (before : Disk Text UInt8) (filename : Text) (data : List UInt8)
    (synced : Prop) (s : WriteRun) : Prop where
  others : ∀ other, other ≠ filename → other ≠ tmpFilename filename → before.Durable other →
    Kept before s.disk other
  here : s.pc.Sound before filename data synced s.disk

theorem ne_tmpFilename (filename : Text) : filename ≠ tmpFilename filename := by
  intro h
  exact absurd (List.self_eq_append_right.mp h) (by decide)

theorem WriteRun.sound_start (hdurable : before.Durable filename) (synced : Prop) :
    (WriteRun.mk before .createDir).Sound before filename data synced where
  others _ _ _ hother := ⟨hother, rfl⟩
  here := ⟨hdurable, rfl⟩

variable {s s' : WriteRun} {synced : Prop}

theorem WriteRun.Sound.at_pc (h : s.Sound before filename data synced) {pc : WritePc}
    (hpc : s.pc = pc) : pc.Sound before filename data synced s.disk :=
  hpc ▸ h.here

/-- A step that fails before the rename. -/
theorem WritePc.sound_error {d : Disk Text UInt8} (h : Kept before d filename) {e : WriteError}
    (he : e.BeforeRename) :
    (WritePc.returned (.error e)).Sound before filename data synced d :=
  ⟨fun _ => h, fun hnot => absurd he hnot⟩

theorem WriteRun.Sound.create (h : s.Sound before filename data synced) (hpc : s.pc = .create) :
    WriteRun.Sound before filename data synced ⟨s.disk.create (tmpFilename filename),
      .write (s.disk.files.openFile (tmpFilename filename) true).2 0 data⟩ := by
  have hkept : Kept before s.disk filename := h.at_pc hpc
  have hempty := s.disk.files.data_openFile_true (tmpFilename filename)
  refine ⟨fun other hname htmp hother => (h.others other hname htmp hother).create htmp,
    hkept.create (ne_tmpFilename filename), s.disk.files.names_openFile_self _ true, ?_, ?_⟩
  · exact (congrArg List.length hempty).symm
  · exact (congrArg (· ++ data) hempty).trans (List.nil_append data)

theorem WriteRun.Sound.write (h : s.Sound before filename data synced) {inode offset n : Nat}
    {left : List UInt8} (hpc : s.pc = .write inode offset left) (hn : n ≤ left.length) :
    WriteRun.Sound before filename data synced
      ⟨s.disk.write inode offset (left.take n), .write inode (offset + n) (left.drop n)⟩ := by
  obtain ⟨hkept, hinode, hoffset, hdata⟩ := h.at_pc hpc
  obtain ⟨hlength, hrest⟩ := s.disk.files.data_write_take hoffset hdata hn
  exact ⟨fun other hname htmp hother => (h.others other hname htmp hother).write htmp hinode _ _,
    hkept.write (ne_tmpFilename filename) hinode _ _, hinode, hlength, hrest⟩

theorem WriteRun.Sound.sync (h : s.Sound before filename data synced) {inode offset : Nat}
    (hpc : s.pc = .write inode offset []) :
    WriteRun.Sound before filename data synced ⟨s.disk.sync inode, .rename⟩ := by
  obtain ⟨hkept, hinode, -, hdata⟩ := h.at_pc hpc
  rw [List.append_nil] at hdata
  exact ⟨fun other hname htmp hother => (h.others other hname htmp hother).sync inode,
    hkept.sync inode, inode, hinode, Function.update_self .., hdata⟩

theorem WriteRun.Sound.rename (h : s.Sound before filename data synced) (hpc : s.pc = .rename)
    {disk : Disk Text UInt8}
    (hrename : s.disk.rename (tmpFilename filename) filename = some disk) :
    WriteRun.Sound before filename data synced ⟨disk, .openDir⟩ := by
  obtain ⟨hkept, inode, hinode, hclean, hdata⟩ := h.at_pc hpc
  refine ⟨fun other hname htmp hother =>
    (h.others other hname htmp hother).rename htmp hname hrename, ?_⟩
  have hreplaced := hkept.durable.replaced hinode hclean hrename
  rwa [hkept.content, hdata] at hreplaced

theorem WriteRun.Sound.syncDir (h : s.Sound before filename data synced) (hpc : s.pc = .syncDir) :
    WriteRun.Sound before filename data synced ⟨s.disk.syncDir, .returned (.ok ())⟩ := by
  have hreplaced : s.disk.Replaced filename (before.files.content filename) data := h.at_pc hpc
  exact ⟨fun other hname htmp hother => (h.others other hname htmp hother).syncDir,
    hreplaced.syncDir, fun _ => hreplaced.durable_syncDir⟩

/-- The disk is as it was. -/
theorem WriteRun.Sound.goto (h : s.Sound before filename data synced) {pc : WritePc}
    (hpc : pc.Sound before filename data synced s.disk) :
    WriteRun.Sound before filename data synced ⟨s.disk, pc⟩ :=
  ⟨h.others, hpc⟩

theorem WriteRun.Sound.succeed (h : s.Sound before filename data synced)
    (hstep : s.step filename data .succeed = some s') : s'.Sound before filename data synced := by
  have hhere := h.here
  rw [WriteRun.step] at hstep
  cases hpc : s.pc with
  | createDir =>
    rw [hpc] at hstep hhere
    cases hstep
    exact h.goto hhere
  | create =>
    rw [hpc] at hstep
    cases hstep
    exact h.create hpc
  | write inode offset left =>
    rw [hpc] at hstep
    dsimp only at hstep
    split at hstep
    · rename_i hleft
      cases hstep
      exact h.sync (hleft ▸ hpc)
    · cases hstep
  | rename =>
    rw [hpc] at hstep hhere
    dsimp only at hstep
    split at hstep
    · cases hstep
      exact h.rename hpc ‹_›
    · cases hstep
      exact h.goto (WritePc.sound_error hhere.1 (by decide))
  | openDir =>
    rw [hpc] at hstep hhere
    cases hstep
    exact h.goto hhere
  | syncDir =>
    rw [hpc] at hstep
    cases hstep
    exact h.syncDir hpc
  | returned result =>
    rw [hpc] at hstep
    cases hstep

theorem WriteRun.Sound.fail (h : s.Sound before filename data synced)
    (hsynced : synced → s.Synced .fail) (hstep : s.step filename data .fail = some s') :
    s'.Sound before filename data synced := by
  have hhere := h.here
  rw [WriteRun.step] at hstep
  cases hpc : s.pc with
  | createDir | create =>
    rw [hpc] at hstep hhere
    cases hstep
    exact h.goto (WritePc.sound_error hhere (by decide))
  | write inode offset left =>
    rw [hpc] at hstep hhere
    cases hstep
    refine h.goto (WritePc.sound_error hhere.1 ?_)
    split
    · decide
    · decide
  | rename =>
    rw [hpc] at hstep hhere
    cases hstep
    exact h.goto (WritePc.sound_error hhere.1 (by decide))
  | openDir =>
    rw [hpc] at hstep hhere
    cases hstep
    exact h.goto ⟨fun hbefore => absurd rfl hbefore, fun _ => hhere⟩
  | syncDir =>
    rw [hpc] at hstep hhere
    cases hstep
    exact h.goto ⟨hhere, fun hall => absurd rfl (hsynced hall hpc)⟩
  | returned result =>
    rw [hpc] at hstep
    cases hstep

/-- **Every step keeps the invariant.** -/
theorem WriteRun.Sound.step (h : s.Sound before filename data synced) {act : WriteAct}
    (hsynced : synced → s.Synced act) (hstep : s.step filename data act = some s') :
    s'.Sound before filename data synced := by
  cases act with
  | succeed => exact h.succeed hstep
  | fail => exact h.fail hsynced hstep
  | write n =>
    dsimp only [WriteRun.step] at hstep
    split at hstep
    · rename_i inode offset left hpc
      split at hstep
      · rename_i hn
        cases hstep
        exact h.write hpc hn.2
      · cases hstep
    · cases hstep

theorem WriteRun.Sound.run {acts : List WriteAct} (h : s.Sound before filename data synced)
    (hsynced : synced → AllSynced filename data s acts)
    (hrun : s.run filename data acts = some s') : s'.Sound before filename data synced := by
  -- the condition goes along with the run
  induction acts generalizing s with
  | nil =>
    cases hrun
    exact h
  | cons act acts ih =>
    obtain ⟨mid, hstep, hrest⟩ := Option.bind_eq_some_iff.mp hrun
    exact ih (h.step (fun hall => (hsynced hall).1) hstep)
      (fun hall => (hsynced hall).2 mid hstep) hrest

/-! ## After a crash -/

/-- Whatever failed, only the old file or the new one is found. -/
theorem WriteRun.Sound.old_or_new (h : s.Sound before filename data synced)
    {after : Text → Option (List UInt8)} (hafter : s.disk.Survives after) :
    after filename = before.files.content filename ∨ after filename = some data := by
  have hkept : Kept before s.disk filename →
      after filename = before.files.content filename ∨ after filename = some data := by
    intro hkept
    exact Or.inl (hkept.eq_content (hafter filename))
  have hreplaced : s.disk.Replaced filename (before.files.content filename) data →
      after filename = before.files.content filename ∨ after filename = some data :=
    fun hreplaced => hreplaced.eq_or_eq (hafter filename)
  have hhere := h.here
  generalize s.pc = pc at hhere
  rcases pc with _ | _ | _ | _ | _ | _ | (e | ⟨⟩)
  · exact hkept hhere
  · exact hkept hhere
  · exact hkept hhere.1
  · exact hkept hhere.1
  · exact hreplaced hhere
  · exact hreplaced hhere
  · by_cases hbefore : e.BeforeRename
    · exact hkept (hhere.1 hbefore)
    · exact hreplaced (hhere.2 hbefore)
  · exact hreplaced hhere.1

theorem WriteRun.Sound.atomic (h : s.Sound before filename data True)
    {after : Text → Option (List UInt8)} (hafter : s.disk.Survives after) :
    s.Atomic before filename data after where
  old_or_new := h.old_or_new hafter
  new_of_ok hpc := by
    obtain ⟨hreplaced, hdurable⟩ := h.at_pc hpc
    exact ((hdurable trivial).eq_content (hafter filename)).trans hreplaced.content
  old_of_error e hpc hbefore := by
    exact ((h.at_pc hpc).1 hbefore).eq_content (hafter filename)
  others other hname htmp hother := by
    exact (h.others other hname htmp hother).eq_content (hafter other)

/-- The readers pass over a temporary file, whatever it holds. -/
theorem readEntries_skip {α : Type} {read : DirEntry → Except Fault (Option α)} {e : DirEntry}
    (he : read e = .ok none) (front rest : List DirEntry) :
    readEntries read (front ++ e :: rest) = readEntries read (front ++ rest) := by
  induction front with
  | nil =>
    rw [List.nil_append, List.nil_append, readEntries, he]
    cases readEntries read rest with
    | error fault => rfl
    | ok as => rfl
  | cons first front ih =>
    rw [List.cons_append, List.cons_append, readEntries, ih, readEntries]

section Readers

variable {M : MonitorImpl} (S : Serial M)

theorem readChannelmonitors_tmp {name : Text} (h : Wellformed name)
    (contents : Option (List UInt8)) (front rest : List DirEntry) :
    readChannelmonitors S (some (front ++ ⟨some (tmpFilename name), contents⟩ :: rest)) =
      readChannelmonitors S (some (front ++ rest)) := by
  refine readEntries_skip ?_ front rest
  have hcheck : checkFilename (some (tmpFilename name)) = .ok none := h.skipped_tmpFilename
  rw [readChannelmonitor, hcheck]

theorem readChannelmonitorUpdates_tmp {name : Text} (h : Wellformed name)
    (contents : Option (List UInt8)) (front rest : List DirEntry) :
    readChannelmonitorUpdates S (some (front ++ ⟨some (tmpFilename name), contents⟩ :: rest)) =
      readChannelmonitorUpdates S (some (front ++ rest)) := by
  have hcheck : checkFilename (some (tmpFilename name)) = .ok none := h.skipped_tmpFilename
  have hskip : readChannelmonitorUpdate S ⟨some (tmpFilename name), contents⟩ = .ok none := by
    rw [readChannelmonitorUpdate, hcheck]
  rw [readChannelmonitorUpdates, readDir, readEntries_skip hskip]
  rfl

/-- **`write_to_file` is atomic and durable.**  For every disk on which the file is durable,
whatever is under the temporary name, for all data and every run in which the last `fsync` does
not fail, with any other failures: whatever a crash leaves after any of its steps is as intended.
A temporary name ends in `.tmp`, and the readers pass over those of monitors and updates. -/
theorem write_to_file_durable :
    (∀ (before : Disk Text UInt8) (filename : Text) (data : List UInt8) (acts : List WriteAct)
      (s : WriteRun), before.Durable filename →
      AllSynced filename data ⟨before, .createDir⟩ acts →
      WriteRun.run filename data ⟨before, .createDir⟩ acts = some s →
      ∀ after, s.disk.Survives after → s.Atomic before filename data after) ∧
    (∀ filename, tmpSuffix <:+ tmpFilename filename) ∧
    ∀ (id : OutPoint) (updateId : UInt64) (contents : Option (List UInt8))
      (front rest : List DirEntry),
      readChannelmonitors S
          (some (front ++ ⟨some (tmpFilename (monitorFilename id)), contents⟩ :: rest)) =
        readChannelmonitors S (some (front ++ rest)) ∧
      readChannelmonitorUpdates S
          (some (front ++ ⟨some (tmpFilename (updateFilename id updateId)), contents⟩ :: rest)) =
        readChannelmonitorUpdates S (some (front ++ rest)) := by
  refine ⟨?_, fun filename => ⟨filename, rfl⟩, fun id updateId contents front rest => ⟨?_, ?_⟩⟩
  · intro before filename data acts s hdurable hsynced hrun after hafter
    have hsound := (WriteRun.sound_start hdurable True).run (fun _ => hsynced) hrun
    exact hsound.atomic hafter
  · exact readChannelmonitors_tmp S (wellformed_monitorFilename id) contents front rest
  · exact readChannelmonitorUpdates_tmp S (wellformed_updateFilename id updateId) contents front rest

end Readers

/-- The file of a channel. -/
def sampleMonitorFile : Text := monitorFilename ⟨Txid.ofByte 1, 0⟩

/-- A call in two writes; `last` says how the last `fsync` goes. -/
def sampleWrite (last : WriteAct) : List WriteAct :=
  [.succeed, .succeed, .write 2, .write 1, .succeed, .succeed, .succeed, last]

/-- The call has returned, and a crash does not lose the file. -/
theorem write_to_file_durable_sample :
    ∃ s, WriteRun.run sampleMonitorFile [1, 2, 3] ⟨Disk.ofFiles Files.empty, .createDir⟩
        (sampleWrite .succeed) = some s ∧ s.pc = .returned (.ok ()) ∧
      ∀ after, s.disk.Survives after → after sampleMonitorFile = some [1, 2, 3] := by
  obtain ⟨s, hrun, hpc⟩ : ∃ s, WriteRun.run sampleMonitorFile [1, 2, 3]
      ⟨Disk.ofFiles Files.empty, .createDir⟩ (sampleWrite .succeed) = some s ∧
      s.pc = .returned (.ok ()) := ⟨_, rfl, rfl⟩
  refine ⟨s, hrun, hpc, fun after hafter => ?_⟩
  exact ((write_to_file_durable preimageSerial).1 _ _ _ _ _ (Disk.durable_ofFiles _ _) (by decide)
    hrun after hafter).new_of_ok hpc

/-- The last `fsync` fails, the call returns `Ok`, and after a crash there is no file. -/
theorem write_to_file_lost :
    ∃ s, WriteRun.run sampleMonitorFile [1, 2, 3] ⟨Disk.ofFiles Files.empty, .createDir⟩
        (sampleWrite .fail) = some s ∧ s.pc = .returned (.ok ()) ∧
      s.disk.Survives (fun _ => none) ∧
      ¬ s.Atomic (Disk.ofFiles Files.empty) sampleMonitorFile [1, 2, 3] fun _ => none := by
  refine ⟨_, rfl, rfl, fun n => ⟨fun _ => none, ?_, Or.inl ⟨rfl, rfl⟩⟩, fun hatomic => ?_⟩
  · exact List.mem_cons_of_mem _ (List.mem_cons_of_mem _ (List.mem_singleton_self _))
  · exact absurd (hatomic.new_of_ok rfl) (by decide)

/-! ## Crashes between two steps -/

variable {α : Type} {c : Codec α} {value : α} {path : StorePath} {d : PersistDisk}

/-- A crash of a call in one directory, as seen by the readers. -/
theorem afterCrash_of_look {after : Text → Option (List UInt8)} {dk dc : PersistDisk}
    (hhere : ∀ n, look dc path n = after n)
    (helsewhere : ∀ q, q ≠ path → ∀ n, look dc q n = look d q n)
    (hafter : ∀ n, ¬ Skipped n → after n = look dk path n)
    (hothers : ∀ q, q ≠ path → ∀ n, look dk q n = look d q n) : AfterCrash dk dc := by
  intro q n hn
  by_cases hq : q = path
  · rw [hq, hhere n]
    exact hafter n hn
  · rw [helsewhere q hq n, hothers q hq n]

/-- **A crash is a cut between two steps, up to temporary files.**  What a crash leaves of a call,
with any failures, is what `CrashPoints` takes it to be: the disk after some of the steps of
`writeToFile`, whatever became of the files the readers skip. -/
theorem survives_prefix (hname : Wellformed filename)
    (hdisk : ∀ n, ¬ Skipped n → before.Durable n ∧ look d path n = before.files.content n)
    {acts : List WriteAct}
    (hrun : WriteRun.run filename (c.write value).flatten ⟨before, .createDir⟩ acts = some s)
    {after : Text → Option (List UInt8)} (hafter : s.disk.Survives after) {dc : PersistDisk}
    (hhere : ∀ n, look dc path n = after n)
    (helsewhere : ∀ q, q ≠ path → ∀ n, look dc q n = look d q n) :
    ∃ k dk, FileStore.run ((writeToFile path filename c value).take k) d = some dk ∧
      AfterCrash dk dc := by
  obtain ⟨hdurable, hbefore⟩ := hdisk filename hname.not_skipped
  have hsound : s.Sound before filename (c.write value).flatten False :=
    (WriteRun.sound_start hdurable False).run (fun hfalse => hfalse.elim) hrun
  have htmp : ∀ n, ¬ Skipped n → n ≠ tmpFilename filename := by
    rintro n hn rfl
    exact hn hname.skipped_tmpFilename
  have hothers : ∀ n, ¬ Skipped n → n ≠ filename → after n = look d path n := by
    intro n hn hne
    rw [(hdisk n hn).2]
    exact (hsound.others n hne (htmp n hn) (hdisk n hn).1).eq_content (hafter n)
  rcases hsound.old_or_new hafter with hold | hnew
  · -- nothing of the call is to be seen
    refine ⟨0, d, rfl, afterCrash_of_look hhere helsewhere (fun n hn => ?_) fun _ _ _ => rfl⟩
    by_cases hne : n = filename
    · rw [hne, hold, hbefore]
    · exact hothers n hn hne
  · -- the new file is in place
    obtain ⟨dk, hdk, -⟩ := FileStore.run_replaceFile path hname.ne_tmpFilename (c.write value) d
    refine ⟨(writeToFile path filename c value).length, dk, ?_,
      afterCrash_of_look hhere helsewhere (fun n hn => ?_) fun q hq n => ?_⟩
    · rw [List.take_length]
      exact hdk
    · by_cases hne : n = filename
      · rw [hne, look_written hname hdk, hnew]
      · rw [look_written_of_ne hname hdk hn hne]
        exact hothers n hn hne
    · exact look_written_elsewhere hname hdk hq n

end HiddenLightning
