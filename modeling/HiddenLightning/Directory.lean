import Mathlib

/-! # Directories, one filesystem step at a time

A disk is a set of directories, each a finite map from file names to contents.
A program that saves its state is a list of filesystem steps (`Op`), each of
which can fail; `run` executes the list and stops at the first failure.  A
complete call is a run of its whole list, a call cut short by a crash is a run
of a prefix.

What a reader can see of a disk is `look`: the content of a file, if there is
one.  Every step touches at most two names (`Op.touches`) and leaves everything
else as it was (`look_exec`), which is the frame rule the rest is built on.  The
two patterns below are spelled out once:

* `replaceFile`: fill a temporary file, then rename it over the destination;
* `emptyDir`: remove every file of a directory, then the directory, and create
  it again.
-/
namespace FileStore

variable {P N β : Type} [DecidableEq P] [DecidableEq N]

/-- The files of one directory. -/
abbrev Dir (N β : Type) := AList (fun _ : N => List β)

/-- The directories of a disk; `none` where there is none. -/
abbrev Disk (P N β : Type) := P → Option (Dir N β)

/-- The content of file `n` of directory `p`. -/
def look (d : Disk P N β) (p : P) (n : N) : Option (List β) := (d p).bind (·.lookup n)

/-- One filesystem step. -/
inductive Op (P N β : Type) where
  | createDirAll (p : P)
  | create (p : P) (n : N)
  | write (p : P) (n : N) (chunk : List β)
  | sync (p : P) (n : N)
  | rename (p : P) (a b : N)
  | syncDir (p : P)
  | unlink (p : P) (n : N)
  | removeDir (p : P)
  | createDir (p : P)

/-- The disk with directory `p` replaced. -/
def setDir (d : Disk P N β) (p : P) (dir : Dir N β) : Disk P N β :=
  Function.update d p (some dir)

/-- The effect of a step, `none` when it fails: a missing directory or file, a
directory to be removed that is not empty, one to be created that exists. -/
def Op.exec : Op P N β → Disk P N β → Option (Disk P N β)
  | .createDirAll p, d => some (if (d p).isSome then d else setDir d p ∅)
  | .create p n, d => (d p).map fun dir => setDir d p (dir.insert n [])
  | .write p n chunk, d => (d p).bind fun dir =>
      (dir.lookup n).map fun c => setDir d p (dir.insert n (c ++ chunk))
  | .sync p n, d => (look d p n).map fun _ => d
  | .rename p a b, d => (d p).bind fun dir =>
      (dir.lookup a).map fun c => setDir d p ((dir.erase a).insert b c)
  | .syncDir p, d => (d p).map fun _ => d
  | .unlink p n, d => (d p).bind fun dir =>
      (dir.lookup n).map fun _ => setDir d p (dir.erase n)
  | .removeDir p, d => (d p).bind fun dir =>
      if dir.entries = [] then some (Function.update d p none) else none
  | .createDir p, d => if (d p).isSome then none else some (setDir d p ∅)

/-- The files a step may change. -/
def Op.touches : Op P N β → P → N → Prop
  | .create p n, q, m | .write p n _, q, m | .unlink p n, q, m => q = p ∧ m = n
  | .rename p a b, q, m => q = p ∧ (m = a ∨ m = b)
  | _, _, _ => False

/-- A list of steps, stopped by the first failure. -/
def run : List (Op P N β) → Disk P N β → Option (Disk P N β)
  | [], d => some d
  | op :: ops, d => (op.exec d).bind (run ops)

/-! ## The frame rule -/

theorem look_setDir (d : Disk P N β) (p q : P) (dir : Dir N β) (n : N) :
    look (setDir d p dir) q n = if q = p then dir.lookup n else look d q n := by
  unfold look setDir
  by_cases hq : q = p
  · subst hq
    rw [Function.update_self, if_pos rfl]
    rfl
  · rw [Function.update_of_ne hq, if_neg hq]

omit [DecidableEq P] in
theorem look_of_some {d : Disk P N β} {p : P} {dir : Dir N β} (h : d p = some dir) (n : N) :
    look d p n = dir.lookup n := by
  rw [look, h]
  rfl

omit [DecidableEq P] in
theorem look_of_none {d : Disk P N β} {p : P} (h : d p = none) (n : N) : look d p n = none := by
  rw [look, h]
  rfl

/-- Replacing a directory by one that agrees with it at `m` is not seen at `m`. -/
theorem look_setDir_of_eq {d : Disk P N β} {p q : P} {dir : Dir N β} {m : N}
    (h : q = p → dir.lookup m = look d q m) : look (setDir d p dir) q m = look d q m := by
  rw [look_setDir]
  split
  · exact h ‹_›
  · rfl

/-- **A step leaves alone what it does not touch.** -/
theorem look_exec {op : Op P N β} {d d' : Disk P N β} (h : op.exec d = some d') {q : P} {m : N}
    (hm : ¬ op.touches q m) : look d' q m = look d q m := by
  cases op with
  | createDirAll p =>
    cases h
    split
    · rfl
    · rename_i hp
      rw [Option.not_isSome_iff_eq_none] at hp
      exact look_setDir_of_eq fun hq => by rw [hq, look_of_none hp, AList.lookup_empty]
  | create p n =>
    obtain ⟨dir, hdir, rfl⟩ := Option.map_eq_some_iff.mp h
    refine look_setDir_of_eq fun hq => ?_
    subst hq
    rw [AList.lookup_insert_ne (fun he => hm ⟨rfl, he⟩), look_of_some hdir]
  | write p n chunk =>
    obtain ⟨dir, hdir, h⟩ := Option.bind_eq_some_iff.mp h
    obtain ⟨c, -, rfl⟩ := Option.map_eq_some_iff.mp h
    refine look_setDir_of_eq fun hq => ?_
    subst hq
    rw [AList.lookup_insert_ne (fun he => hm ⟨rfl, he⟩), look_of_some hdir]
  | sync p n =>
    obtain ⟨_, -, rfl⟩ := Option.map_eq_some_iff.mp h
    rfl
  | rename p a b =>
    obtain ⟨dir, hdir, h⟩ := Option.bind_eq_some_iff.mp h
    obtain ⟨c, -, rfl⟩ := Option.map_eq_some_iff.mp h
    refine look_setDir_of_eq fun hq => ?_
    subst hq
    rw [AList.lookup_insert_ne (fun he => hm ⟨rfl, Or.inr he⟩),
      AList.lookup_erase_ne (fun he => hm ⟨rfl, Or.inl he⟩), look_of_some hdir]
  | syncDir p =>
    obtain ⟨_, -, rfl⟩ := Option.map_eq_some_iff.mp h
    rfl
  | unlink p n =>
    obtain ⟨dir, hdir, h⟩ := Option.bind_eq_some_iff.mp h
    obtain ⟨c, -, rfl⟩ := Option.map_eq_some_iff.mp h
    refine look_setDir_of_eq fun hq => ?_
    subst hq
    rw [AList.lookup_erase_ne (fun he => hm ⟨rfl, he⟩), look_of_some hdir]
  | removeDir p =>
    obtain ⟨dir, hdir, h⟩ := Option.bind_eq_some_iff.mp h
    split at h
    · rename_i hempty
      cases h
      by_cases hq : q = p
      · subst hq
        have hnil : dir = ∅ := AList.ext hempty
        rw [look_of_none (Function.update_self ..), look_of_some hdir, hnil, AList.lookup_empty]
      · rw [look, look, Function.update_of_ne hq]
    · cases h
  | createDir p =>
    simp only [Op.exec] at h
    split at h
    · cases h
    · rename_i hp
      cases h
      rw [Option.not_isSome_iff_eq_none] at hp
      exact look_setDir_of_eq fun hq => by rw [hq, look_of_none hp, AList.lookup_empty]

/-! ## Runs -/

@[simp] theorem run_nil (d : Disk P N β) : run [] d = some d := rfl

theorem run_cons (op : Op P N β) (ops : List (Op P N β)) (d : Disk P N β) :
    run (op :: ops) d = (op.exec d).bind (run ops) := rfl

theorem run_append (xs ys : List (Op P N β)) (d : Disk P N β) :
    run (xs ++ ys) d = (run xs d).bind (run ys) := by
  induction xs generalizing d with
  | nil => rfl
  | cons op xs ih =>
    rw [List.cons_append, run_cons, run_cons]
    cases op.exec d with
    | none => rfl
    | some d' => exact ih d'

/-- A run that succeeds succeeds on each of its prefixes. -/
theorem run_take {ops : List (Op P N β)} {d d' : Disk P N β} (h : run ops d = some d') (k : Nat) :
    ∃ dk, run (ops.take k) d = some dk := by
  rw [← List.take_append_drop k ops, run_append] at h
  obtain ⟨dk, hk, -⟩ := Option.bind_eq_some_iff.mp h
  exact ⟨dk, hk⟩

/-- **A run leaves alone what none of its steps touches.** -/
theorem look_run {ops : List (Op P N β)} {d d' : Disk P N β} (h : run ops d = some d') {q : P}
    {m : N} (hm : ∀ op ∈ ops, ¬ op.touches q m) : look d' q m = look d q m := by
  induction ops generalizing d with
  | nil => cases h; rfl
  | cons op ops ih =>
    obtain ⟨d₁, h₁, h⟩ := Option.bind_eq_some_iff.mp h
    rw [ih h (fun o ho => hm o (List.mem_cons_of_mem _ ho)),
      look_exec h₁ (hm op List.mem_cons_self)]

theorem exists_dir_createDirAll {p : P} {d d' : Disk P N β}
    (h : (Op.createDirAll p).exec d = some d') : ∃ dir, d' p = some dir := by
  cases h
  split
  · exact Option.isSome_iff_exists.mp ‹_›
  · exact ⟨∅, Function.update_self ..⟩

/-! ## Replacing a file through a temporary one -/

/-- Filling file `n` of `p` with chunks, from empty, and making it durable. -/
def stage (p : P) (n : N) (chunks : List (List β)) : List (Op P N β) :=
  .createDirAll p :: .create p n :: (chunks.map (.write p n) ++ [.sync p n])

/-- Staging the new content in `tmp`, then renaming it over `n`. -/
def replaceFile (p : P) (tmp n : N) (chunks : List (List β)) : List (Op P N β) :=
  stage p tmp chunks ++ [.rename p tmp n, .syncDir p]

omit [DecidableEq P] [DecidableEq N] in
theorem touches_stage {p q : P} {n m : N} {chunks : List (List β)} {op : Op P N β}
    (hop : op ∈ stage p n chunks) (h : op.touches q m) : q = p ∧ m = n := by
  simp only [stage, List.mem_cons, List.mem_append, List.mem_map, List.not_mem_nil, or_false] at hop
  rcases hop with rfl | rfl | ⟨c, -, rfl⟩ | rfl
  · exact h.elim
  · exact h
  · exact h
  · exact h.elim

omit [DecidableEq P] [DecidableEq N] in
theorem touches_replaceFile {p q : P} {tmp n m : N} {chunks : List (List β)} {op : Op P N β}
    (hop : op ∈ replaceFile p tmp n chunks) (h : op.touches q m) : q = p ∧ (m = tmp ∨ m = n) := by
  rcases List.mem_append.mp hop with hop | hop
  · exact ⟨(touches_stage hop h).1, Or.inl (touches_stage hop h).2⟩
  · simp only [List.mem_cons, List.not_mem_nil, or_false] at hop
    rcases hop with rfl | rfl
    · exact h
    · exact h.elim

theorem run_writes (p : P) (n : N) (chunks : List (List β)) :
    ∀ (d : Disk P N β) (c : List β), look d p n = some c →
      ∃ d', run (chunks.map (.write p n)) d = some d' ∧ look d' p n = some (c ++ chunks.flatten) := by
  induction chunks with
  | nil => intro d c h; exact ⟨d, rfl, by rw [h, List.flatten_nil, List.append_nil]⟩
  | cons x chunks ih =>
    intro d c h
    obtain ⟨dir, hdir, hc⟩ := Option.bind_eq_some_iff.mp h
    have hexec : (Op.write p n x).exec d = some (setDir d p (dir.insert n (c ++ x))) := by
      simp only [Op.exec, hdir, Option.bind_some, hc, Option.map_some]
    obtain ⟨d', hrun, hlook⟩ := ih (setDir d p (dir.insert n (c ++ x))) (c ++ x)
      (by rw [look_setDir, if_pos rfl, AList.lookup_insert])
    refine ⟨d', ?_, by rw [hlook, List.flatten_cons, List.append_assoc]⟩
    rw [List.map_cons, run_cons, hexec]
    exact hrun

/-- **Staging always succeeds**, and leaves the chunks in the file. -/
theorem run_stage (p : P) (n : N) (chunks : List (List β)) (d : Disk P N β) :
    ∃ d', run (stage p n chunks) d = some d' ∧ look d' p n = some chunks.flatten := by
  obtain ⟨d₀, hcreateDir⟩ : ∃ d₀, (Op.createDirAll p).exec d = some d₀ := ⟨_, rfl⟩
  obtain ⟨dir, hdir⟩ := exists_dir_createDirAll hcreateDir
  obtain ⟨d', hrun, hlook⟩ := run_writes p n chunks (setDir d₀ p (dir.insert n [])) []
    (by rw [look_setDir, if_pos rfl, AList.lookup_insert])
  rw [List.nil_append] at hlook
  refine ⟨d', ?_, hlook⟩
  have hcreate : (Op.create p n).exec d₀ = some (setDir d₀ p (dir.insert n [])) := by
    simp only [Op.exec, hdir, Option.map_some]
  have hsync : (Op.sync p n).exec d' = some d' := by
    simp only [Op.exec, hlook, Option.map_some]
  rw [stage, run_cons, hcreateDir, Option.bind_some, run_cons, hcreate, Option.bind_some, run_append,
    hrun, Option.bind_some, run_cons, hsync]
  rfl

/-- **Replacing a file always succeeds**: the destination has the new content and
the temporary file is gone. -/
theorem run_replaceFile (p : P) {tmp n : N} (hne : tmp ≠ n) (chunks : List (List β))
    (d : Disk P N β) :
    ∃ d', run (replaceFile p tmp n chunks) d = some d' ∧ look d' p n = some chunks.flatten ∧
      look d' p tmp = none := by
  obtain ⟨d₁, hrun, hlook⟩ := run_stage p tmp chunks d
  obtain ⟨dir, hdir, hc⟩ := Option.bind_eq_some_iff.mp hlook
  have hrename : (Op.rename p tmp n).exec d₁ =
      some (setDir d₁ p ((dir.erase tmp).insert n chunks.flatten)) := by
    simp only [Op.exec, hdir, Option.bind_some, hc, Option.map_some]
  refine ⟨setDir d₁ p ((dir.erase tmp).insert n chunks.flatten), ?_, ?_, ?_⟩
  · rw [replaceFile, run_append, hrun, Option.bind_some, run_cons, hrename, Option.bind_some,
      run_cons]
    have hset : setDir d₁ p ((dir.erase tmp).insert n chunks.flatten) p =
        some ((dir.erase tmp).insert n chunks.flatten) := Function.update_self ..
    simp only [Op.exec, hset, Option.map_some]
    rfl
  · rw [look_setDir, if_pos rfl, AList.lookup_insert]
  · rw [look_setDir, if_pos rfl, AList.lookup_insert_ne hne, AList.lookup_erase]

theorem eq_of_exec_syncDir {p : P} {d d' : Disk P N β}
    (h : (Op.syncDir p).exec d = some d') : d' = d := by
  obtain ⟨_, -, rfl⟩ := Option.map_eq_some_iff.mp h
  rfl

/-- **A file is replaced at once**: before the rename only the temporary file differs, after
it the replacement is complete. -/
theorem run_take_replaceFile {p : P} {tmp n : N} (hne : tmp ≠ n) {chunks : List (List β)}
    {d dk : Disk P N β} {k : Nat} (h : run ((replaceFile p tmp n chunks).take k) d = some dk) :
    (.rename p tmp n ∉ (replaceFile p tmp n chunks).take k ∧
        ∀ q m, ¬ (q = p ∧ m = tmp) → look dk q m = look d q m) ∨
      (.rename p tmp n ∈ (replaceFile p tmp n chunks).take k ∧
        run (replaceFile p tmp n chunks) d = some dk) := by
  have htake : (replaceFile p tmp n chunks).take k = (stage p tmp chunks).take k ++
      [.rename p tmp n, .syncDir p].take (k - (stage p tmp chunks).length) := by
    rw [replaceFile, List.take_append]
  rw [htake] at h ⊢
  rcases Nat.lt_or_ge (stage p tmp chunks).length k with hlt | hle
  · right
    obtain ⟨j, hj⟩ : ∃ j, k - (stage p tmp chunks).length = j + 1 :=
      ⟨k - (stage p tmp chunks).length - 1, by omega⟩
    rw [List.take_of_length_le (Nat.le_of_lt hlt), hj, List.take_succ_cons] at h ⊢
    refine ⟨by simp, ?_⟩
    -- the steps up to the rename are those of the complete run, and syncing changes nothing
    obtain ⟨d', hrun, -⟩ := run_replaceFile p hne chunks d
    rw [hrun]
    rw [replaceFile, run_append] at hrun
    rw [run_append] at h
    obtain ⟨d₁, h₁, hrun⟩ := Option.bind_eq_some_iff.mp hrun
    rw [h₁, Option.bind_some, run_cons] at h
    rw [run_cons] at hrun
    obtain ⟨d₂, h₂, hrun⟩ := Option.bind_eq_some_iff.mp hrun
    rw [h₂, Option.bind_some] at h
    obtain ⟨d₃, h₃, hrun⟩ := Option.bind_eq_some_iff.mp hrun
    cases hrun
    cases j with
    | zero =>
      cases h
      rw [eq_of_exec_syncDir h₃]
    | succ j =>
      rw [List.take_succ_cons, List.take_nil, run_cons, h₃] at h
      exact h
  · left
    rw [Nat.sub_eq_zero_of_le hle, List.take_zero, List.append_nil] at h ⊢
    constructor
    · intro hmem
      have := List.mem_of_mem_take hmem
      simp [stage] at this
    · intro q m hm
      exact look_run h fun op hop ht => hm (touches_stage (List.mem_of_mem_take hop) ht)

/-- What a reader sees after replacing a file. -/
theorem look_replaceFile {p : P} {tmp n : N} (hne : tmp ≠ n) {chunks : List (List β)}
    {d d' : Disk P N β} (h : run (replaceFile p tmp n chunks) d = some d') (q : P) (m : N) :
    look d' q m = if q = p ∧ m = n then some chunks.flatten
      else if q = p ∧ m = tmp then none else look d q m := by
  obtain ⟨d₁, h₁, hn, htmp⟩ := run_replaceFile p hne chunks d
  cases h₁.symm.trans h
  split
  · rename_i hqm
    rw [hqm.1, hqm.2, hn]
  · split
    · rename_i hqm
      rw [hqm.1, hqm.2, htmp]
    · rename_i hqn hqt
      refine look_run h fun op hop ht => ?_
      obtain ⟨hq, hm | hm⟩ := touches_replaceFile hop ht
      · exact hqt ⟨hq, hm⟩
      · exact hqn ⟨hq, hm⟩

/-! ## Emptying a directory -/

/-- Making sure `p` exists, removing its files in the given order, then the
directory itself, and creating it again. -/
def emptyDir (p : P) (order : List N) : List (Op P N β) :=
  .createDirAll p :: (order.map (.unlink p) ++ [.removeDir p, .createDir p])

/-- Removing files makes exactly these unreadable. -/
theorem look_unlinks {p : P} {order : List N} {d d' : Disk P N β}
    (h : run (order.map (.unlink p)) d = some d') (m : N) :
    look d' p m = if m ∈ order then none else look d p m := by
  induction order generalizing d with
  | nil => cases h; simp
  | cons n order ih =>
    rw [List.map_cons, run_cons] at h
    obtain ⟨d₁, h₁, h⟩ := Option.bind_eq_some_iff.mp h
    rw [ih h]
    by_cases hm : m = n
    · subst hm
      obtain ⟨dir, hdir, h₁⟩ := Option.bind_eq_some_iff.mp h₁
      obtain ⟨c, -, rfl⟩ := Option.map_eq_some_iff.mp h₁
      rw [look_setDir, if_pos rfl, AList.lookup_erase]
      simp
    · rw [look_exec h₁ (fun ht => hm ht.2)]
      simp [hm]

omit [DecidableEq P] [DecidableEq N] in
theorem touches_emptyDir {p q : P} {order : List N} {m : N} {op : Op P N β}
    (hop : op ∈ emptyDir p order) (h : op.touches q m) : q = p ∧ m ∈ order := by
  simp only [emptyDir, List.mem_cons, List.mem_append, List.mem_map, List.not_mem_nil,
    or_false] at hop
  rcases hop with rfl | ⟨n, hn, rfl⟩ | rfl | rfl
  · exact h.elim
  · exact ⟨h.1, h.2 ▸ hn⟩
  · exact h.elim
  · exact h.elim

/-! ### Steps that only remove

The steps of `emptyDir` change files only by removing them, which settles what any
part of it leaves behind. -/

/-- The steps change files only by removing them. -/
def Removing (ops : List (Op P N β)) : Prop :=
  ∀ op ∈ ops, ∀ q m, op.touches q m → op = .unlink q m

omit [DecidableEq P] [DecidableEq N] in
theorem removing_emptyDir (p : P) (order : List N) :
    Removing (emptyDir p order : List (Op P N β)) := by
  intro op hop q m h
  simp only [emptyDir, List.mem_cons, List.mem_append, List.mem_map, List.not_mem_nil,
    or_false] at hop
  rcases hop with rfl | ⟨n, -, rfl⟩ | rfl | rfl
  · exact h.elim
  · rw [h.1, h.2]
  · exact h.elim
  · exact h.elim

namespace Removing
variable {ops : List (Op P N β)} {d d' : Disk P N β} {q : P} {m : N}

omit [DecidableEq P] [DecidableEq N] in
theorem mono {ops' : List (Op P N β)} (h : Removing ops) (hsub : ∀ op ∈ ops', op ∈ ops) :
    Removing ops' := fun op hop => h op (hsub op hop)

/-- What is not removed stays. -/
theorem look_of_notMem (hops : Removing ops) (h : run ops d = some d') (hm : .unlink q m ∉ ops) :
    look d' q m = look d q m :=
  look_run h fun op hop ht => hm (hops op hop q m ht ▸ hop)

/-- What is removed was there. -/
theorem isSome_of_mem (hops : Removing ops) (h : run ops d = some d') (hm : .unlink q m ∈ ops) :
    (look d q m).isSome := by
  induction ops generalizing d with
  | nil => cases hm
  | cons op ops ih =>
    obtain ⟨d₁, h₁, h⟩ := Option.bind_eq_some_iff.mp h
    by_cases hop : op = .unlink q m
    · subst hop
      obtain ⟨dir, hdir, h₁⟩ := Option.bind_eq_some_iff.mp h₁
      obtain ⟨c, hc, -⟩ := Option.map_eq_some_iff.mp h₁
      rw [look_of_some hdir, hc]
      rfl
    · have hmem := (List.mem_cons.mp hm).resolve_left fun he => hop he.symm
      rw [← look_exec h₁ fun ht => hop (hops op List.mem_cons_self q m ht)]
      exact ih (hops.mono fun op' hop' => List.mem_cons_of_mem _ hop') h hmem

/-- And is gone. -/
theorem look_of_mem (hops : Removing ops) (h : run ops d = some d') (hm : .unlink q m ∈ ops) :
    look d' q m = none := by
  induction ops generalizing d with
  | nil => cases hm
  | cons op ops ih =>
    obtain ⟨d₁, h₁, hrest⟩ := Option.bind_eq_some_iff.mp h
    have hops' : Removing ops := hops.mono fun op' hop' => List.mem_cons_of_mem _ hop'
    by_cases hmem : .unlink q m ∈ ops
    · exact ih hops' hrest hmem
    · obtain rfl := (List.mem_cons.mp hm).resolve_right hmem
      rw [hops'.look_of_notMem hrest hmem]
      obtain ⟨dir, -, h₁⟩ := Option.bind_eq_some_iff.mp h₁
      obtain ⟨c, -, rfl⟩ := Option.map_eq_some_iff.mp h₁
      rw [look_setDir, if_pos rfl, AList.lookup_erase]

end Removing

/-- **An emptied directory is empty**, and nothing else has changed. -/
theorem look_emptyDir {p : P} {order : List N} {d d' : Disk P N β}
    (h : run (emptyDir p order) d = some d') (q : P) (m : N) :
    look d' q m = if q = p then none else look d q m := by
  split
  · rename_i hq
    rw [emptyDir, run_cons] at h
    obtain ⟨d₁, -, h⟩ := Option.bind_eq_some_iff.mp h
    rw [run_append] at h
    obtain ⟨d₂, -, h⟩ := Option.bind_eq_some_iff.mp h
    rw [run_cons] at h
    obtain ⟨d₃, -, h⟩ := Option.bind_eq_some_iff.mp h
    rw [run_cons] at h
    obtain ⟨d₄, h₄, h⟩ := Option.bind_eq_some_iff.mp h
    cases h
    simp only [Op.exec] at h₄
    split at h₄
    · cases h₄
    · cases h₄
      rw [look_setDir, if_pos hq, AList.lookup_empty]
  · rename_i hq
    exact look_run h fun op hop ht => hq (touches_emptyDir hop ht).1

/-- **Part of emptying a directory**: other directories are as before, a file is gone or
as before, and all are gone once no removal is left. -/
theorem look_take_emptyDir {p : P} {order : List N} {d dk d' : Disk P N β} {k : Nat}
    (hk : run ((emptyDir p order).take k) d = some dk) (h : run (emptyDir p order) d = some d') :
    (∀ q m, q ≠ p → look dk q m = look d q m) ∧
      (∀ m, look dk p m = none ∨ look dk p m = look d p m) ∧
      ((∀ m, look dk p m = none) ↔ ∀ m, .unlink p m ∉ (emptyDir p order : List (Op P N β)).drop k) := by
  have hrem := removing_emptyDir (P := P) (β := β) p order
  have htake := hrem.mono fun op hop => List.mem_of_mem_take (i := k) hop
  have hdrop := hrem.mono fun op hop => List.mem_of_mem_drop (i := k) hop
  have hrest : run ((emptyDir p order).drop k) dk = some d' := by
    rw [← List.take_append_drop k (emptyDir p order), run_append, hk] at h
    exact h
  refine ⟨fun q m hq => ?_, fun m => ?_, fun hnone m hm => ?_, fun hno m => ?_⟩
  · exact look_run hk fun op hop ht => hq (touches_emptyDir (List.mem_of_mem_take hop) ht).1
  · by_cases hm : .unlink p m ∈ (emptyDir p order : List (Op P N β)).take k
    · exact Or.inl (htake.look_of_mem hk hm)
    · exact Or.inr (htake.look_of_notMem hk hm)
  · have := hdrop.isSome_of_mem hrest hm
    rw [hnone] at this
    cases this
  · rw [← hdrop.look_of_notMem hrest (hno m), look_emptyDir h, if_pos rfl]

/-- Removing distinct existing files succeeds. -/
theorem run_unlinks {p : P} {order : List N} (hn : order.Nodup) {d : Disk P N β}
    (h : ∀ n ∈ order, (look d p n).isSome) : ∃ d', run (order.map (.unlink p)) d = some d' := by
  induction order generalizing d with
  | nil => exact ⟨d, rfl⟩
  | cons n order ih =>
    obtain ⟨hnot, hn⟩ := List.nodup_cons.mp hn
    obtain ⟨c, hc⟩ := Option.isSome_iff_exists.mp (h n List.mem_cons_self)
    obtain ⟨dir, hdir, hlook⟩ := Option.bind_eq_some_iff.mp hc
    have hexec : (Op.unlink p n).exec d = some (setDir d p (dir.erase n)) := by
      simp only [Op.exec, hdir, Option.bind_some, hlook, Option.map_some]
    obtain ⟨d', hrun⟩ := ih hn (d := setDir d p (dir.erase n)) fun m hm => by
      have hne : m ≠ n := fun he => hnot (he ▸ hm)
      rw [look_setDir, if_pos rfl, AList.lookup_erase_ne hne, ← look_of_some hdir]
      exact h m (List.mem_cons_of_mem _ hm)
    exact ⟨d', by rw [List.map_cons, run_cons, hexec]; exact hrun⟩

/-- The files of `p`, a missing directory having none. -/
def names (d : Disk P N β) (p : P) : List N := ((d p).map AList.keys).getD []

omit [DecidableEq P] in
theorem mem_names {d : Disk P N β} {p : P} {n : N} : n ∈ names d p ↔ (look d p n).isSome := by
  unfold names look
  cases hp : d p with
  | none => simp
  | some dir => simp [AList.lookup_isSome, AList.mem_keys]

omit [DecidableEq P] [DecidableEq N] in
theorem nodup_names (d : Disk P N β) (p : P) : (names d p).Nodup := by
  unfold names
  cases hp : d p with
  | none => exact List.nodup_nil
  | some dir => exact dir.keys_nodup

theorem exists_dir_unlinks {p : P} {order : List N} {d d' : Disk P N β}
    (hd : ∃ dir, d p = some dir) (h : run (order.map (.unlink p)) d = some d') :
    ∃ dir, d' p = some dir := by
  induction order generalizing d with
  | nil => cases h; exact hd
  | cons n order ih =>
    rw [List.map_cons, run_cons] at h
    obtain ⟨d₁, h₁, h⟩ := Option.bind_eq_some_iff.mp h
    refine ih ?_ h
    obtain ⟨dir, -, h₁⟩ := Option.bind_eq_some_iff.mp h₁
    obtain ⟨c, -, rfl⟩ := Option.map_eq_some_iff.mp h₁
    exact ⟨_, Function.update_self ..⟩

/-- **Emptying a directory succeeds** in every order that meets each of its files
once. -/
theorem run_emptyDir {p : P} {d : Disk P N β} {order : List N} (ho : order.Perm (names d p)) :
    ∃ d', run (emptyDir p order) d = some d' := by
  obtain ⟨d₁, h₁⟩ : ∃ d₁, (Op.createDirAll p).exec d = some d₁ := ⟨_, rfl⟩
  have hlook₁ : ∀ m, look d₁ p m = look d p m := fun m => look_exec h₁ (fun h => h.elim)
  obtain ⟨d₂, h₂⟩ := run_unlinks (p := p) (d := d₁) (ho.nodup_iff.mpr (nodup_names d p)) fun n hn => by
    rw [hlook₁]
    exact mem_names.mp (ho.mem_iff.mp hn)
  obtain ⟨dir, hdir⟩ := exists_dir_unlinks (exists_dir_createDirAll h₁) h₂
  have hempty : dir.entries = [] := by
    refine List.eq_nil_iff_forall_not_mem.mpr fun e he => ?_
    have hl : dir.lookup e.1 = some e.2 := AList.mem_lookup_iff.mpr he
    rw [← look_of_some hdir, look_unlinks h₂, hlook₁] at hl
    split at hl
    · cases hl
    · rename_i hno
      exact hno (ho.mem_iff.mpr (mem_names.mpr (by rw [hl]; rfl)))
  refine ⟨setDir (Function.update d₂ p none) p ∅, ?_⟩
  rw [emptyDir, run_cons, h₁, Option.bind_some, run_append, h₂, Option.bind_some, run_cons]
  simp [Op.exec, hdir, hempty, run]

end FileStore
