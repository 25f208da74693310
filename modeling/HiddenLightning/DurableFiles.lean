import HiddenLightning.OpenFiles

/-! # What survives a crash

Files are seen as they were last written (`files`), but not all of it is on the disk.  The content
of an inode is there once it was synced, and the directory as it was at some time since it was
last synced, possibly different times for different names.  After a crash a name may lead to
any inode it has led to since, and an inode that was not synced may hold anything (`Survives`).

A name is durable if only what is seen there can survive (`Durable`).  What is done to other names
keeps it durable, and `Replaced` says what can survive where a file was renamed over a durable one.
-/
namespace OpenFiles

variable {N β : Type}

variable (N β) in
/-- The files, the inodes that were written since they were synced, and the directories since the
last sync, the present one among them. -/
structure Disk where
  files : Files N β
  dirty : Nat → Bool
  dirs : List (N → Option Nat)
  names_mem : files.names ∈ dirs
  dirs_lt : ∀ dir ∈ dirs, ∀ n i, dir n = some i → i < files.used

namespace Disk

/-- The content may be found under the name after a crash. -/
def MayHold (d : Disk N β) (n : N) (content : Option (List β)) : Prop :=
  ∃ dir ∈ d.dirs,
    (dir n = none ∧ content = none) ∨
    ∃ i bytes, dir n = some i ∧ content = some bytes ∧ (d.dirty i = false → bytes = d.files.data i)

/-- The contents that a crash may leave. -/
def Survives (d : Disk N β) (after : N → Option (List β)) : Prop := ∀ n, d.MayHold n (after n)

/-- The name and the content of its file are on the disk. -/
structure Durable (d : Disk N β) (n : N) : Prop where
  names : ∀ dir ∈ d.dirs, dir n = d.files.names n
  clean : ∀ i, d.files.names n = some i → d.dirty i = false

/-- The name leads to a synced inode, and has led to another synced one, or to none, since the
directory was synced. -/
structure Replaced (d : Disk N β) (n : N) (old : Option (List β)) (new : List β) : Prop where
  content : d.files.content n = some new
  clean : ∀ dir ∈ d.dirs, ∀ i, dir n = some i → d.dirty i = false
  either : ∀ dir ∈ d.dirs, (dir n).map d.files.data = old ∨ (dir n).map d.files.data = some new

/-- Files all of which are on the disk. -/
def ofFiles (files : Files N β) : Disk N β where
  files := files
  dirty _ := false
  dirs := [files.names]
  names_mem := List.mem_singleton_self _
  dirs_lt dir hdir n i h := by
    rw [List.mem_singleton.mp hdir] at h
    exact files.names_lt n i h

variable (d : Disk N β)

/-- What is seen is among what may survive. -/
theorem survives_content : d.Survives d.files.content := by
  intro n
  refine ⟨d.files.names, d.names_mem, ?_⟩
  rw [Files.content]
  cases hn : d.files.names n with
  | none => exact Or.inl ⟨rfl, rfl⟩
  | some i => exact Or.inr ⟨i, d.files.data i, rfl, rfl, fun _ => rfl⟩

theorem durable_ofFiles (files : Files N β) (n : N) : (ofFiles files).Durable n where
  names dir hdir := by rw [List.mem_singleton.mp hdir]; rfl
  clean _ _ := rfl

variable {d}

/-- Synced inodes keep their content. -/
theorem MayHold.exists_dir {n : N} {content : Option (List β)} (h : d.MayHold n content)
    (hclean : ∀ dir ∈ d.dirs, ∀ i, dir n = some i → d.dirty i = false) :
    ∃ dir ∈ d.dirs, content = (dir n).map d.files.data := by
  obtain ⟨dir, hdir, ⟨hnone, rfl⟩ | ⟨i, bytes, hi, rfl, hbytes⟩⟩ := h
  · exact ⟨dir, hdir, by rw [hnone]; rfl⟩
  · refine ⟨dir, hdir, ?_⟩
    rw [hi, Option.map_some, hbytes (hclean dir hdir i hi)]

/-- **Only what is seen survives under a durable name.** -/
theorem Durable.eq_content {n : N} (h : d.Durable n) {content : Option (List β)}
    (hafter : d.MayHold n content) : content = d.files.content n := by
  obtain ⟨dir, hdir, rfl⟩ := hafter.exists_dir fun dir hdir i hi =>
    h.clean i ((h.names dir hdir).symm.trans hi)
  rw [h.names dir hdir]
  rfl

/-- **Only the old or the new content survives where a file was replaced.** -/
theorem Replaced.eq_or_eq {n : N} {old : Option (List β)} {new : List β} (h : d.Replaced n old new)
    {content : Option (List β)} (hafter : d.MayHold n content) :
    content = old ∨ content = some new := by
  obtain ⟨dir, hdir, rfl⟩ := hafter.exists_dir h.clean
  exact h.either dir hdir

/-! ## Operations -/

section Operations
variable (d)

/-- Open a file for writing and empty it, `File::create`. -/
def create [DecidableEq N] (n : N) : Disk N β where
  files := (d.files.openFile n true).1
  dirty := Function.update d.dirty (d.files.openFile n true).2 true
  dirs := (d.files.openFile n true).1.names :: d.dirs
  names_mem := List.mem_cons_self
  dirs_lt dir hdir m i h := by
    rcases List.mem_cons.mp hdir with rfl | hdir
    · exact Files.names_lt _ m i h
    · exact Nat.lt_of_lt_of_le (d.dirs_lt dir hdir m i h) (d.files.used_le_openFile n true)

/-- Write to an open file. -/
def write [Zero β] (i offset : Nat) (bytes : List β) : Disk N β where
  files := d.files.write i offset bytes
  dirty := Function.update d.dirty i true
  dirs := d.dirs
  names_mem := d.names_mem
  dirs_lt := d.dirs_lt

/-- `sync_all` on an open file. -/
def sync (i : Nat) : Disk N β where
  files := d.files
  dirty := Function.update d.dirty i false
  dirs := d.dirs
  names_mem := d.names_mem
  dirs_lt := d.dirs_lt

/-- Rename a file over another; `none` if there is no such file. -/
def rename [DecidableEq N] (a b : N) : Option (Disk N β) :=
  match h : d.files.rename a b with
  | none => none
  | some files => some
    { files := files
      dirty := d.dirty
      dirs := files.names :: d.dirs
      names_mem := List.mem_cons_self
      dirs_lt := fun dir hdir m i hi => by
        rcases List.mem_cons.mp hdir with rfl | hdir
        · exact files.names_lt m i hi
        · obtain ⟨-, -, -, -, hused⟩ := d.files.rename_eq_some h
          exact hused ▸ d.dirs_lt dir hdir m i hi }

/-- `fsync` on the directory. -/
def syncDir : Disk N β where
  files := d.files
  dirty := d.dirty
  dirs := [d.files.names]
  names_mem := List.mem_singleton_self _
  dirs_lt dir hdir n i h := by
    rw [List.mem_singleton.mp hdir] at h
    exact d.files.names_lt n i h

/-! ### What they keep -/

variable {d} {n m : N}

theorem Durable.create [DecidableEq N] (h : d.Durable m) (hne : m ≠ n) : (d.create n).Durable m where
  names dir hdir := by
    rcases List.mem_cons.mp hdir with rfl | hdir
    · rfl
    · exact (h.names dir hdir).trans (d.files.names_openFile_of_ne hne true).symm
  clean i hi := by
    have hother : i ≠ (d.files.openFile n true).2 := by
      rintro rfl
      exact hne (Files.names_inj _ m n _ hi (d.files.names_openFile_self n true))
    have hold : d.files.names m = some i := (d.files.names_openFile_of_ne hne true).symm.trans hi
    exact (Function.update_of_ne hother ..).trans (h.clean i hold)

theorem content_create_of_ne [DecidableEq N] (hne : m ≠ n) :
    (d.create n).files.content m = d.files.content m :=
  d.files.content_openFile_of_ne hne true

theorem Durable.write [Zero β] (h : d.Durable m) {i : Nat} (hi : d.files.names n = some i)
    (hne : m ≠ n) (offset : Nat) (bytes : List β) : (d.write i offset bytes).Durable m where
  names := h.names
  clean j hj := by
    have hother : j ≠ i := by
      rintro rfl
      exact hne (d.files.names_inj m n j hj hi)
    exact (Function.update_of_ne hother ..).trans (h.clean j hj)

theorem Durable.sync (h : d.Durable m) (i : Nat) : (d.sync i).Durable m where
  names := h.names
  clean j hj := by
    by_cases hji : j = i
    · rw [hji]
      exact Function.update_self ..
    · exact (Function.update_of_ne hji ..).trans (h.clean j hj)

theorem Durable.syncDir (h : d.Durable m) : d.syncDir.Durable m where
  names dir hdir := by
    rw [List.mem_singleton.mp hdir]
    rfl
  clean := h.clean

/-- What a rename did. -/
theorem rename_eq_some [DecidableEq N] {a b : N} {d' : Disk N β} (h : d.rename a b = some d') :
    d.files.rename a b = some d'.files ∧ d'.dirty = d.dirty ∧ d'.dirs = d'.files.names :: d.dirs := by
  rw [rename] at h
  split at h
  · cases h
  · rename_i hfiles
    cases h
    exact ⟨hfiles, rfl, rfl⟩

theorem Durable.rename [DecidableEq N] {a b : N} {d' : Disk N β} (h : d.Durable m)
    (hrename : d.rename a b = some d') (ha : m ≠ a) (hb : m ≠ b) :
    d'.Durable m ∧ d'.files.content m = d.files.content m := by
  obtain ⟨hfiles, hdirty, hdirs⟩ := rename_eq_some hrename
  obtain ⟨i, -, hnames, hdata, -⟩ := d.files.rename_eq_some hfiles
  have hm : d'.files.names m = d.files.names m := by
    rw [hnames, Function.update_of_ne hb, Function.update_of_ne ha]
  refine ⟨⟨fun dir hdir => ?_, fun j hj => ?_⟩, ?_⟩
  · rw [hdirs] at hdir
    rcases List.mem_cons.mp hdir with rfl | hdir
    · rfl
    · exact (h.names dir hdir).trans hm.symm
  · rw [hdirty]
    exact h.clean j (hm.symm.trans hj)
  · rw [Files.content, Files.content, hm, hdata]

/-- **A synced file is renamed over a durable one.** -/
theorem Durable.replaced [DecidableEq N] {a b : N} {d' : Disk N β} (h : d.Durable b) {i : Nat}
    (hi : d.files.names a = some i) (hclean : d.dirty i = false) (hrename : d.rename a b = some d') :
    d'.Replaced b (d.files.content b) (d.files.data i) := by
  obtain ⟨hfiles, hdirty, hdirs⟩ := rename_eq_some hrename
  obtain ⟨j, hj, hnames, hdata, -⟩ := d.files.rename_eq_some hfiles
  have hij : j = i := Option.some.inj (hj.symm.trans hi)
  subst hij
  have hb : d'.files.names b = some j := by
    rw [hnames, Function.update_self]
  refine ⟨?_, fun dir hdir k hk => ?_, fun dir hdir => ?_⟩
  · rw [Files.content, hb, Option.map_some, hdata]
  · rw [hdirs] at hdir
    rw [hdirty]
    rcases List.mem_cons.mp hdir with rfl | hdir
    · rw [hb] at hk
      cases hk
      exact hclean
    · exact h.clean k ((h.names dir hdir).symm.trans hk)
  · rw [hdirs] at hdir
    rw [hdata]
    rcases List.mem_cons.mp hdir with rfl | hdir
    · exact Or.inr (by rw [hb, Option.map_some])
    · exact Or.inl (by rw [h.names dir hdir, Files.content])

theorem Replaced.syncDir {old : Option (List β)} {new : List β} (h : d.Replaced n old new) :
    d.syncDir.Replaced n old new where
  content := h.content
  clean dir hdir i hi := by
    rw [List.mem_singleton.mp hdir] at hi
    exact h.clean d.files.names d.names_mem i hi
  either dir hdir := by
    rw [List.mem_singleton.mp hdir]
    exact Or.inr h.content

/-- **and once the directory is synced, it is durable itself.** -/
theorem Replaced.durable_syncDir {old : Option (List β)} {new : List β}
    (h : d.Replaced n old new) : d.syncDir.Durable n where
  names dir hdir := by
    rw [List.mem_singleton.mp hdir]
    rfl
  clean i hi := h.clean d.files.names d.names_mem i hi

end Operations

end Disk

end OpenFiles
