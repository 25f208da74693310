import Mathlib

/-! # Files behind names and handles

A name leads to an inode and an inode holds the content.  An open file is an inode and an
offset: it stays with its inode when the name is given to another file, and its next write goes
to its own offset, whatever else has been written to the inode.  Opening for writing creates the
file if there is none, and empties it only if asked to.  No two names lead to one inode: nothing
here makes hard links.

A writer that keeps to the end of its file only adds to it (`overwrite_length`), and leaves the
files of all other names alone (`content_write_of_ne`).
-/
namespace OpenFiles

variable {N β : Type}

/-- Bytes written at an offset; a gap before them reads as zeros. -/
def overwrite [Zero β] (old : List β) (offset : Nat) (bytes : List β) : List β :=
  old.take offset ++ List.replicate (offset - old.length) 0 ++ bytes ++
    old.drop (offset + bytes.length)

/-- Writing at the end is appending. -/
theorem overwrite_length [Zero β] (old bytes : List β) :
    overwrite old old.length bytes = old ++ bytes := by
  have hdrop : old.drop (old.length + bytes.length) = [] :=
    List.drop_eq_nil_of_le (by omega)
  rw [overwrite, hdrop, List.take_length, Nat.sub_self, List.replicate_zero, List.append_nil,
    List.append_nil]

variable (N β) in
/-- The names and the inodes; those from `used` on were never opened. -/
structure Files where
  names : N → Option Nat
  data : Nat → List β
  used : Nat
  names_lt : ∀ n i, names n = some i → i < used
  names_inj : ∀ n m i, names n = some i → names m = some i → n = m

namespace Files

/-- No file at all. -/
def empty : Files N β where
  names _ := none
  data _ := []
  used := 0
  names_lt _ _ h := nomatch h
  names_inj _ _ _ h := nomatch h

/-- The content of the file of a name. -/
def content (f : Files N β) (n : N) : Option (List β) := (f.names n).map f.data

/-- The content of an inode is replaced. -/
def setData (f : Files N β) (i : Nat) (bytes : List β) : Files N β :=
  { f with data := Function.update f.data i bytes }

@[simp] theorem names_setData (f : Files N β) (i : Nat) (bytes : List β) :
    (f.setData i bytes).names = f.names := rfl

@[simp] theorem data_setData_self (f : Files N β) (i : Nat) (bytes : List β) :
    (f.setData i bytes).data i = bytes :=
  Function.update_self ..

theorem data_setData_of_ne (f : Files N β) {i j : Nat} (h : j ≠ i) (bytes : List β) :
    (f.setData i bytes).data j = f.data j :=
  Function.update_of_ne h ..

/-- Write to an open file. -/
def write [Zero β] (f : Files N β) (i offset : Nat) (bytes : List β) : Files N β :=
  f.setData i (overwrite (f.data i) offset bytes)

/-- Where no other name leads to the inode, no other file changes. -/
theorem content_setData_of_ne (f : Files N β) {n m : N} {i : Nat} (hi : f.names n = some i)
    (h : m ≠ n) (bytes : List β) : (f.setData i bytes).content m = f.content m := by
  rw [content, content, names_setData]
  cases hm : f.names m with
  | none => rfl
  | some j =>
    have hne : j ≠ i := by
      rintro rfl
      exact h (f.names_inj m n j hm hi)
    rw [Option.map_some, Option.map_some, data_setData_of_ne f hne]

theorem content_write_of_ne [Zero β] (f : Files N β) {n m : N} {i : Nat}
    (hi : f.names n = some i) (h : m ≠ n) (offset : Nat) (bytes : List β) :
    (f.write i offset bytes).content m = f.content m :=
  content_setData_of_ne f hi h _

theorem data_write_length [Zero β] (f : Files N β) {i offset : Nat}
    (hoffset : offset = (f.data i).length) (bytes : List β) :
    (f.write i offset bytes).data i = f.data i ++ bytes := by
  rw [write, data_setData_self, hoffset, overwrite_length]

/-- One write of what is still to be written, by a writer at the end of its file. -/
theorem data_write_take [Zero β] (f : Files N β) {i offset n : Nat} {left whole : List β}
    (hoffset : offset = (f.data i).length) (hwhole : f.data i ++ left = whole)
    (hn : n ≤ left.length) :
    offset + n = ((f.write i offset (left.take n)).data i).length ∧
      (f.write i offset (left.take n)).data i ++ left.drop n = whole := by
  rw [f.data_write_length hoffset]
  constructor
  · rw [List.length_append, List.length_take, ← hoffset]
    omega
  · rw [List.append_assoc, List.take_append_drop, hwhole]

variable [DecidableEq N]

/-- A new, empty file. -/
def create (f : Files N β) (n : N) : Files N β where
  names := Function.update f.names n (some f.used)
  data := Function.update f.data f.used []
  used := f.used + 1
  names_lt m i h := by
    rw [Function.update_apply] at h
    split at h
    · cases h
      omega
    · have := f.names_lt m i h
      omega
  names_inj m m' i h h' := by
    rw [Function.update_apply] at h h'
    by_cases hm : m = n
    · by_cases hm' : m' = n
      · rw [hm, hm']
      · rw [if_pos hm] at h
        rw [if_neg hm'] at h'
        have := f.names_lt m' i h'
        cases h
        omega
    · rw [if_neg hm] at h
      by_cases hm' : m' = n
      · rw [if_pos hm'] at h'
        have := f.names_lt m i h
        cases h'
        omega
      · rw [if_neg hm'] at h'
        exact f.names_inj m m' i h h'

/-- Open for writing, with the inode. -/
def openFile (f : Files N β) (n : N) (truncate : Bool) : Files N β × Nat :=
  match f.names n with
  | none => (f.create n, f.used)
  | some i => (if truncate then f.setData i [] else f, i)

/-- Remove a name; the inode stays for those who have it open. -/
def unlink (f : Files N β) (n : N) : Files N β where
  -- inodes are not used again, so there is nothing to free
  names := Function.update f.names n none
  data := f.data
  used := f.used
  names_lt m i h := by
    rw [Function.update_apply] at h
    split at h
    · cases h
    · exact f.names_lt m i h
  names_inj m m' i h h' := by
    rw [Function.update_apply] at h h'
    split at h
    · cases h
    · split at h'
      · cases h'
      · exact f.names_inj m m' i h h'

/-- Give an inode that has no name a name, in place of what had it. -/
def link (f : Files N β) (n : N) (i : Nat) (hi : i < f.used) (hfree : ∀ m, f.names m ≠ some i) :
    Files N β where
  names := Function.update f.names n (some i)
  data := f.data
  used := f.used
  names_lt m j h := by
    rw [Function.update_apply] at h
    split at h
    · cases h
      exact hi
    · exact f.names_lt m j h
  names_inj m m' j h h' := by
    rw [Function.update_apply] at h h'
    by_cases hm : m = n
    · by_cases hm' : m' = n
      · rw [hm, hm']
      · rw [if_pos hm] at h
        rw [if_neg hm'] at h'
        cases h
        exact absurd h' (hfree m')
    · rw [if_neg hm] at h
      by_cases hm' : m' = n
      · rw [if_pos hm'] at h'
        cases h'
        exact absurd h (hfree m)
      · rw [if_neg hm'] at h'
        exact f.names_inj m m' j h h'

/-- Once its name is removed an inode has none. -/
theorem unlink_free (f : Files N β) {n : N} {i : Nat} (hi : f.names n = some i) (m : N) :
    (f.unlink n).names m ≠ some i := by
  intro h
  have h' : Function.update f.names n none m = some i := h
  rw [Function.update_apply] at h'
  split at h'
  · cases h'
  · exact absurd (f.names_inj m n i h' hi) ‹_›

/-- Rename a file over another; `none` if there is no such file. -/
def rename (f : Files N β) (a b : N) : Option (Files N β) :=
  match h : f.names a with
  | none => none
  | some i => some ((f.unlink a).link b i (f.names_lt a i h) (f.unlink_free h))

/-! ## What a step does to a name and to an inode -/

variable (f : Files N β) (n m : N)

theorem names_openFile_self (truncate : Bool) :
    (f.openFile n truncate).1.names n = some (f.openFile n truncate).2 := by
  rw [openFile]
  split
  · exact Function.update_self ..
  · rename_i i hi
    cases truncate
    · exact hi
    · exact hi

theorem names_openFile_of_ne {n m : N} (h : m ≠ n) (truncate : Bool) :
    (f.openFile n truncate).1.names m = f.names m := by
  rw [openFile]
  split
  · exact Function.update_of_ne h ..
  · cases truncate
    · rfl
    · rfl

theorem used_le_openFile (n : N) (truncate : Bool) : f.used ≤ (f.openFile n truncate).1.used := by
  rw [openFile]
  split
  · exact Nat.le_succ _
  · cases truncate
    · exact le_rfl
    · exact le_rfl

/-- Opening leaves all other files alone. -/
theorem content_openFile_of_ne {n m : N} (h : m ≠ n) (truncate : Bool) :
    (f.openFile n truncate).1.content m = f.content m := by
  rw [openFile]
  split
  · have hnames : (f.create n).names m = f.names m := Function.update_of_ne h ..
    rw [content, content, hnames]
    cases hm : f.names m with
    | none => rfl
    | some j =>
      have hne : j ≠ f.used := by
        have := f.names_lt m j hm
        omega
      exact congrArg some (Function.update_of_ne hne ..)
  · rename_i i hi
    cases truncate
    · rfl
    · exact content_setData_of_ne f hi h []

/-- A file that is not there is new, and empty. -/
theorem data_openFile_of_none {n : N} (h : f.names n = none) (truncate : Bool) :
    (f.openFile n truncate).1.data (f.openFile n truncate).2 = [] := by
  rw [openFile, h]
  exact Function.update_self ..

/-- A file that is to be emptied is empty. -/
theorem data_openFile_true (n : N) : (f.openFile n true).1.data (f.openFile n true).2 = [] := by
  cases hn : f.names n with
  | none => exact f.data_openFile_of_none hn true
  | some i =>
    rw [openFile, hn]
    exact f.data_setData_self i []

/-- What was there is still there, unless the file is to be emptied. -/
theorem data_openFile (n : N) :
    (f.openFile n false).1.data (f.openFile n false).2 = (f.content n).getD [] := by
  rw [content]
  cases hn : f.names n with
  | none => exact f.data_openFile_of_none hn false
  | some i =>
    rw [openFile, hn]
    rfl

theorem content_unlink_of_ne {n m : N} (h : m ≠ n) : (f.unlink n).content m = f.content m := by
  have hnames : (f.unlink n).names m = f.names m := Function.update_of_ne h ..
  rw [content, content, hnames]
  rfl

/-- What a rename did. -/
theorem rename_eq_some {a b : N} {f' : Files N β} (h : f.rename a b = some f') :
    ∃ i, f.names a = some i ∧ f'.names = Function.update (Function.update f.names a none) b (some i) ∧
      f'.data = f.data ∧ f'.used = f.used := by
  rw [rename] at h
  split at h
  · cases h
  · rename_i i hi
    cases h
    exact ⟨i, hi, rfl, rfl, rfl⟩

theorem rename_of_some {a b : N} (hne : a ≠ b) {i : Nat} (h : f.names a = some i) :
    ∃ f', f.rename a b = some f' ∧ f'.names a = none ∧ f'.names b = some i ∧
      f'.data = f.data := by
  rw [rename]
  split
  · rename_i hnone
    rw [h] at hnone
    cases hnone
  · rename_i j hj
    rw [h] at hj
    cases hj
    refine ⟨_, rfl, ?_, Function.update_self .., rfl⟩
    exact (Function.update_of_ne hne ..).trans (Function.update_self ..)

end Files

end OpenFiles
