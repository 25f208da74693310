import HiddenLightning.OpenFiles

/-! # Writing to a file through a buffer

A buffered writer collects what it is given and passes it on to its file when the buffer
would overflow, or at once if it is as large as the buffer; what is left is passed on when
the writer is dropped.  A pass may fail after some of its bytes; then what was not taken
stays in the buffer and the error is returned, except that of the last pass, for which there
is no one left to return it to.

Which passes there are depends on the writes alone (`layout`).  The writes succeed exactly if
none of these passes fails (`writeChunks_makes`), and all bytes have been taken by the end
exactly if the pass of the drop does not fail either (`taken_drop_eq_iff`).
-/
namespace OpenFiles

variable {N β : Type}

/-! ## A file that may fail -/

/-- How the passes to a file go: `some m` if a pass fails after `m` bytes. -/
abbrev Device := Nat → Option Nat

/-- The pass fails before all of the bytes are taken. -/
def Device.FailsOn (device : Device) (pass : Nat) (bytes : List β) : Prop :=
  ∃ m ∈ device pass, m < bytes.length

instance (device : Device) (pass : Nat) (bytes : List β) : Decidable (device.FailsOn pass bytes) :=
  inferInstanceAs (Decidable (∃ m ∈ device pass, m < bytes.length))

/-- There is nothing that is not taken. -/
theorem Device.not_failsOn_nil (device : Device) (pass : Nat) :
    ¬ device.FailsOn pass ([] : List β) := by
  rintro ⟨m, -, hlt⟩
  exact Nat.not_lt_zero m hlt

/-- None of the passes fails; the first of them has the number `pass`. -/
def Device.TakesAll (device : Device) : Nat → List (List β) → Prop
  | _, [] => True
  | pass, bytes :: passes => ¬ device.FailsOn pass bytes ∧ device.TakesAll (pass + 1) passes

instance Device.decidableTakesAll (device : Device) :
    (pass : Nat) → (passes : List (List β)) → Decidable (device.TakesAll pass passes)
  | _, [] => isTrue trivial
  | pass, bytes :: passes =>
    have := device.decidableTakesAll (pass + 1) passes
    inferInstanceAs (Decidable (¬ device.FailsOn pass bytes ∧ device.TakesAll (pass + 1) passes))

theorem Device.takesAll_append (device : Device) (pass : Nat) (passes others : List (List β)) :
    device.TakesAll pass (passes ++ others) ↔
      device.TakesAll pass passes ∧ device.TakesAll (pass + passes.length) others := by
  induction passes generalizing pass with
  | nil => simp [Device.TakesAll]
  | cons bytes passes ih =>
    have hpass : pass + (passes.length + 1) = pass + 1 + passes.length := by omega
    rw [List.cons_append, Device.TakesAll, Device.TakesAll, ih, and_assoc, List.length_cons, hpass]

/-- A file whose passes all go well. -/
theorem Device.takesAll_of_none {device : Device} (h : ∀ pass, device pass = none) (pass : Nat)
    (passes : List (List β)) : device.TakesAll pass passes := by
  induction passes generalizing pass with
  | nil => trivial
  | cons bytes passes ih =>
    refine ⟨?_, ih (pass + 1)⟩
    rintro ⟨m, hm, -⟩
    rw [h pass] at hm
    cases hm

/-- An open file that is written from its start, with the bytes it has taken and the number of
passes made so far. -/
structure Handle (N β : Type) where
  files : Files N β
  inode : Nat
  taken : List β
  passes : Nat

variable [Zero β]

/-- The next bytes are written. -/
def Handle.put (h : Handle N β) (bytes : List β) : Handle N β where
  files := h.files.write h.inode h.taken.length bytes
  inode := h.inode
  taken := h.taken ++ bytes
  passes := h.passes + 1

/-- One pass (`write_all` on the file), with the bytes that were not taken. -/
def Handle.pass (device : Device) (h : Handle N β) (bytes : List β) : Handle N β × List β :=
  match device h.passes with
  | none => (h.put bytes, [])
  | some m => (h.put (bytes.take m), bytes.drop m)

/-- Passes that do not fail. -/
def Handle.putAll (h : Handle N β) (passes : List (List β)) : Handle N β :=
  passes.foldl Handle.put h

/-! ## The writer -/

/-- A buffered writer. -/
structure BufWriter (N β : Type) where
  handle : Handle N β
  buf : List β

omit [Zero β] in
/-- `BufWriter::new`, on a file just opened. -/
def BufWriter.new (files : Files N β) (inode : Nat) : BufWriter N β := ⟨⟨files, inode, [], 0⟩, []⟩

/-- `flush_buf`: what is not taken stays in the buffer. -/
def BufWriter.flushBuf (device : Device) (w : BufWriter N β) : BufWriter N β × Bool :=
  if w.buf = [] then (w, true)
  else
    (⟨(w.handle.pass device w.buf).1, (w.handle.pass device w.buf).2⟩,
      (w.handle.pass device w.buf).2.isEmpty)

/-- The second operation is made if the first succeeds. -/
def BufWriter.andThen (first : BufWriter N β × Bool)
    (second : BufWriter N β → BufWriter N β × Bool) : BufWriter N β × Bool :=
  if first.2 then second first.1 else (first.1, false)

/-- The part of `write_all_cold` that empties the buffer if there is no room for the bytes. -/
def BufWriter.makeRoom (device : Device) (capacity : Nat) (w : BufWriter N β) (bytes : List β) :
    BufWriter N β × Bool :=
  if capacity - w.buf.length < bytes.length then w.flushBuf device else (w, true)

/-- The part of `write_all_cold` that stores the bytes, or passes them on if they are as large as
the buffer. -/
def BufWriter.store (device : Device) (capacity : Nat) (w : BufWriter N β) (bytes : List β) :
    BufWriter N β × Bool :=
  if capacity ≤ bytes.length then
    (⟨(w.handle.pass device bytes).1, w.buf⟩, (w.handle.pass device bytes).2.isEmpty)
  else (⟨w.handle, w.buf ++ bytes⟩, true)

/-- `write_all`, with a buffer of the given capacity. -/
def BufWriter.writeAll (device : Device) (capacity : Nat) (w : BufWriter N β) (bytes : List β) :
    BufWriter N β × Bool :=
  if bytes.length < capacity - w.buf.length then (⟨w.handle, w.buf ++ bytes⟩, true)
  else andThen (w.makeRoom device capacity bytes) fun w => w.store device capacity bytes

/-- The writes of an object, up to the first that fails. -/
def BufWriter.writeChunks (device : Device) (capacity : Nat) :
    BufWriter N β → List (List β) → BufWriter N β × Bool
  | w, [] => (w, true)
  | w, chunk :: chunks =>
    andThen (w.writeAll device capacity chunk) fun w => w.writeChunks device capacity chunks

/-- The writer is dropped: the result of the last pass is discarded. -/
def BufWriter.drop (device : Device) (w : BufWriter N β) : BufWriter N β := (w.flushBuf device).1

/-! ## What a file that was written from its start holds -/

/-- Writing on from where the writes before ended. -/
theorem overwrite_prefix (taken old bytes : List β) :
    overwrite (taken ++ old.drop taken.length) taken.length bytes =
      (taken ++ bytes) ++ old.drop (taken ++ bytes).length := by
  have hgap : taken.length - (taken ++ old.drop taken.length).length = 0 := by
    rw [List.length_append]
    omega
  have hrest : (taken ++ old.drop taken.length).drop (taken.length + bytes.length) =
      old.drop (taken ++ bytes).length := by
    rw [← List.drop_drop, List.drop_left, List.drop_drop, List.length_append]
  rw [overwrite, hgap, hrest, List.take_left, List.replicate_zero, List.append_nil]

namespace Handle

variable (h : Handle N β)

theorem putAll_append (passes others : List (List β)) :
    h.putAll (passes ++ others) = (h.putAll passes).putAll others :=
  List.foldl_append

@[simp] theorem putAll_names (passes : List (List β)) :
    (h.putAll passes).files.names = h.files.names := by
  induction passes generalizing h with
  | nil => rfl
  | cons bytes passes ih => exact ih (h.put bytes)

@[simp] theorem putAll_inode (passes : List (List β)) : (h.putAll passes).inode = h.inode := by
  induction passes generalizing h with
  | nil => rfl
  | cons bytes passes ih => exact ih (h.put bytes)

@[simp] theorem putAll_taken (passes : List (List β)) :
    (h.putAll passes).taken = h.taken ++ passes.flatten := by
  induction passes generalizing h with
  | nil => exact (List.append_nil _).symm
  | cons bytes passes ih =>
    rw [List.flatten_cons, ← List.append_assoc]
    exact ih (h.put bytes)

@[simp] theorem putAll_passes (passes : List (List β)) :
    (h.putAll passes).passes = h.passes + passes.length := by
  induction passes generalizing h with
  | nil => rfl
  | cons bytes passes ih =>
    have hput : (h.put bytes).passes = h.passes + 1 := rfl
    rw [List.length_cons]
    exact (ih (h.put bytes)).trans (by omega)

/-- No other file changes. -/
theorem content_putAll_of_ne {n m : N} (hname : h.files.names n = some h.inode) (hne : m ≠ n)
    (passes : List (List β)) : (h.putAll passes).files.content m = h.files.content m := by
  induction passes generalizing h with
  | nil => rfl
  | cons bytes passes ih =>
    exact (ih (h.put bytes) hname).trans (h.files.content_write_of_ne hname hne _ bytes)

/-- **What was taken, then what the file held beyond.** -/
theorem data_putAll {old : List β}
    (hdata : h.files.data h.inode = h.taken ++ old.drop h.taken.length) (passes : List (List β)) :
    (h.putAll passes).files.data h.inode =
      (h.putAll passes).taken ++ old.drop (h.putAll passes).taken.length := by
  induction passes generalizing h with
  | nil => exact hdata
  | cons bytes passes ih =>
    refine ih (h.put bytes) ?_
    show (h.files.write h.inode h.taken.length bytes).data h.inode = _
    rw [Files.write, Files.data_setData_self, hdata, overwrite_prefix]
    rfl

variable {device : Device}

/-- A pass that does not fail takes everything. -/
theorem pass_of_not_failsOn {bytes : List β} (hfails : ¬ device.FailsOn h.passes bytes) :
    h.pass device bytes = (h.put bytes, []) := by
  rw [pass]
  split
  · rfl
  · rename_i m hm
    have hle : bytes.length ≤ m := by
      by_contra hlt
      exact hfails ⟨m, hm, by omega⟩
    rw [List.take_of_length_le hle, List.drop_eq_nil_of_le hle]

/-- A pass that fails leaves something. -/
theorem pass_snd_ne_nil {bytes : List β} (hfails : device.FailsOn h.passes bytes) :
    (h.pass device bytes).2 ≠ [] := by
  obtain ⟨m, hm, hlt⟩ := hfails
  rw [pass, Option.mem_def.mp hm]
  intro hnil
  have := List.drop_eq_nil_iff.mp hnil
  omega

theorem isEmpty_pass_iff (bytes : List β) :
    (h.pass device bytes).2.isEmpty = true ↔ ¬ device.FailsOn h.passes bytes := by
  constructor
  · intro hempty hfails
    exact h.pass_snd_ne_nil hfails (List.isEmpty_iff.mp hempty)
  · intro hfails
    rw [h.pass_of_not_failsOn hfails]
    rfl

/-- What was taken and what was not. -/
theorem pass_taken (bytes : List β) :
    (h.pass device bytes).1.taken ++ (h.pass device bytes).2 = h.taken ++ bytes := by
  rw [pass]
  split
  · exact List.append_nil _
  · rename_i m _
    show h.taken ++ bytes.take m ++ bytes.drop m = h.taken ++ bytes
    rw [List.append_assoc, List.take_append_drop]

/-- Failing or not, a pass writes some bytes. -/
theorem exists_pass_eq_put (bytes : List β) : ∃ part, (h.pass device bytes).1 = h.put part := by
  rw [pass]
  split
  · exact ⟨bytes, rfl⟩
  · exact ⟨_, rfl⟩

end Handle

/-! ## Which passes there are -/

section Layout

omit [Zero β]

/-- The pass that empties the buffer, if there is anything in it. -/
def flushPasses (buf : List β) : List (List β) := if buf = [] then [] else [buf]

/-- The passes of one write, and what is in the buffer afterwards. -/
def chunkLayout (capacity : Nat) (buf chunk : List β) : List (List β) × List β :=
  if chunk.length < capacity - buf.length then ([], buf ++ chunk)
  else if capacity - buf.length < chunk.length then
    if capacity ≤ chunk.length then (flushPasses buf ++ [chunk], []) else (flushPasses buf, chunk)
  else if capacity ≤ chunk.length then ([chunk], buf) else ([], buf ++ chunk)

/-- What is passed on while the chunks are written, and what is in the buffer afterwards. -/
def layout (capacity : Nat) : List β → List (List β) → List (List β) × List β
  | buf, [] => ([], buf)
  | buf, chunk :: chunks =>
    let (passes, buf) := chunkLayout capacity buf chunk
    let (others, left) := layout capacity buf chunks
    (passes ++ others, left)

theorem layout_cons (capacity : Nat) (buf chunk : List β) (chunks : List (List β)) :
    layout capacity buf (chunk :: chunks) =
      ((chunkLayout capacity buf chunk).1 ++
          (layout capacity (chunkLayout capacity buf chunk).2 chunks).1,
        (layout capacity (chunkLayout capacity buf chunk).2 chunks).2) := rfl

theorem flatten_flushPasses (buf : List β) : (flushPasses buf).flatten = buf := by
  rw [flushPasses]
  split
  · rename_i hnil
    rw [hnil]
    rfl
  · exact List.flatten_singleton

theorem takesAll_flushPasses (device : Device) (pass : Nat) (buf : List β) :
    device.TakesAll pass (flushPasses buf) ↔ ¬ device.FailsOn pass buf := by
  rw [flushPasses]
  split
  · rename_i hnil
    rw [hnil]
    exact iff_of_true trivial (device.not_failsOn_nil pass)
  · exact and_iff_left trivial

/-- A write keeps the bytes in their order, and does not overfill the buffer. -/
theorem chunkLayout_flatten {capacity : Nat} {buf : List β} (hbuf : buf.length ≤ capacity)
    (chunk : List β) :
    (chunkLayout capacity buf chunk).1.flatten ++ (chunkLayout capacity buf chunk).2 =
        buf ++ chunk ∧
      (chunkLayout capacity buf chunk).2.length ≤ capacity := by
  unfold chunkLayout
  split_ifs with hfits hover hlarge hlarge
  · refine ⟨rfl, ?_⟩
    rw [List.length_append]
    omega
  · refine ⟨?_, Nat.zero_le _⟩
    rw [List.flatten_append, flatten_flushPasses, List.flatten_singleton, List.append_nil]
  · refine ⟨?_, Nat.le_of_not_le hlarge⟩
    rw [flatten_flushPasses]
  · -- the chunk is as large as the buffer, which is empty then
    have hnil : buf = [] := List.length_eq_zero_iff.mp (by omega)
    rw [hnil]
    exact ⟨by simp, Nat.zero_le _⟩
  · refine ⟨rfl, ?_⟩
    rw [List.length_append]
    omega

/-- **The passes and what is left are the bytes of the chunks, in order.** -/
theorem layout_flatten {capacity : Nat} {buf : List β} (hbuf : buf.length ≤ capacity)
    (chunks : List (List β)) :
    (layout capacity buf chunks).1.flatten ++ (layout capacity buf chunks).2 =
      buf ++ chunks.flatten := by
  induction chunks generalizing buf with
  | nil => exact (List.append_nil buf).symm
  | cons chunk chunks ih =>
    obtain ⟨hbytes, hroom⟩ := chunkLayout_flatten hbuf chunk
    rw [layout_cons, List.flatten_append, List.append_assoc, ih hroom, ← List.append_assoc, hbytes,
      List.append_assoc, List.flatten_cons]

/-- Chunks that fit into the buffer are not passed on before the drop. -/
theorem layout_of_lt {capacity : Nat} {buf : List β} {chunks : List (List β)}
    (h : buf.length + chunks.flatten.length < capacity) :
    layout capacity buf chunks = ([], buf ++ chunks.flatten) := by
  induction chunks generalizing buf with
  | nil => rw [layout, List.flatten_nil, List.append_nil]
  | cons chunk chunks ih =>
    rw [List.flatten_cons, List.length_append] at h
    have hchunk : chunkLayout capacity buf chunk = ([], buf ++ chunk) := by
      rw [chunkLayout, if_pos (by omega)]
    have hrest : (buf ++ chunk).length + chunks.flatten.length < capacity := by
      rw [List.length_append]
      omega
    rw [layout_cons, hchunk, ih hrest, List.flatten_cons, ← List.append_assoc]
    rfl

/-- Nothing is not passed on. -/
theorem ne_nil_of_mem_flushPasses {buf bytes : List β} (h : bytes ∈ flushPasses buf) :
    bytes ≠ [] := by
  rw [flushPasses] at h
  split at h
  · cases h
  · rwa [List.mem_singleton.mp h]

theorem ne_nil_of_mem_layout {capacity : Nat} (hcapacity : 0 < capacity) {buf : List β}
    {chunks : List (List β)} {bytes : List β} (h : bytes ∈ (layout capacity buf chunks).1) :
    bytes ≠ [] := by
  induction chunks generalizing buf with
  | nil => cases h
  | cons chunk chunks ih =>
    rw [layout_cons, List.mem_append] at h
    obtain h | h := h
    · have hlarge : capacity ≤ chunk.length → chunk ≠ [] := by
        rintro hle rfl
        exact absurd hle (Nat.not_le_of_lt hcapacity)
      unfold chunkLayout at h
      split_ifs at h with hfits hover hle hle
      · cases h
      · rcases List.mem_append.mp h with h | h
        · exact ne_nil_of_mem_flushPasses h
        · rw [List.mem_singleton.mp h]
          exact hlarge hle
      · exact ne_nil_of_mem_flushPasses h
      · rw [List.mem_singleton.mp h]
        exact hlarge hle
      · cases h
    · exact ih h

end Layout

/-! ## What an operation does -/

namespace BufWriter

/-- **An operation makes the passes of a layout**: it succeeds exactly if none of them fails, and
then all of them have been made; if one fails, some bytes may have been written. -/
structure Makes (device : Device) (w : BufWriter N β) (result : BufWriter N β × Bool)
    (passes : List (List β)) (left : List β) : Prop where
  ok_iff : result.2 = true ↔ device.TakesAll w.handle.passes passes
  of_ok : result.2 = true → result.1 = ⟨w.handle.putAll passes, left⟩
  puts : ∃ written, result.1.handle = w.handle.putAll written

variable {device : Device} {capacity : Nat} (w : BufWriter N β)

/-- Nothing is passed on. -/
theorem makes_nil (left : List β) : Makes device w (⟨w.handle, left⟩, true) [] left where
  ok_iff := iff_of_true rfl trivial
  of_ok _ := rfl
  puts := ⟨[], rfl⟩

/-- One pass; what it does not take is kept or not. -/
theorem makes_pass (bytes : List β) {left : List β} {kept : List β}
    (hkept : (w.handle.pass device bytes).2 = [] → kept = left) :
    Makes device w (⟨(w.handle.pass device bytes).1, kept⟩,
      (w.handle.pass device bytes).2.isEmpty) [bytes] left where
  ok_iff := by
    rw [Device.TakesAll, Device.TakesAll, and_true]
    exact w.handle.isEmpty_pass_iff bytes
  of_ok hok := by
    rw [hkept (List.isEmpty_iff.mp hok),
      w.handle.pass_of_not_failsOn ((w.handle.isEmpty_pass_iff bytes).mp hok)]
    rfl
  puts := by
    obtain ⟨part, hput⟩ := w.handle.exists_pass_eq_put bytes
    exact ⟨[part], hput⟩

variable {w}

/-- **Two operations make the passes of both.** -/
theorem Makes.andThen {first : BufWriter N β × Bool} {second : BufWriter N β → BufWriter N β × Bool}
    {passes others : List (List β)} {buf left : List β} (h : Makes device w first passes buf)
    (h' : ∀ w : BufWriter N β, w.buf = buf → Makes device w (second w) others left) :
    Makes device w (BufWriter.andThen first second) (passes ++ others) left := by
  obtain ⟨written, hwritten⟩ := h.puts
  rw [BufWriter.andThen]
  by_cases hok : first.2 = true
  · have hfirst := h.of_ok hok
    have hbuf : first.1.buf = buf := by rw [hfirst]
    have hhandle : first.1.handle = w.handle.putAll passes := by rw [hfirst]
    have hsecond := h' first.1 hbuf
    rw [if_pos hok]
    refine ⟨?_, ?_, ?_⟩
    · rw [hsecond.ok_iff, hhandle, Handle.putAll_passes, Device.takesAll_append,
        and_iff_right (h.ok_iff.mp hok)]
    · intro hok'
      rw [hsecond.of_ok hok', hhandle, Handle.putAll_append]
    · obtain ⟨written', hwritten'⟩ := hsecond.puts
      exact ⟨written ++ written', by rw [hwritten', hwritten, Handle.putAll_append]⟩
  · rw [if_neg hok]
    refine ⟨?_, fun hfalse => ?_, written, hwritten⟩
    · rw [Device.takesAll_append, ← h.ok_iff]
      exact iff_of_false Bool.false_ne_true fun hboth => hok hboth.1
    · exact absurd hfalse Bool.false_ne_true

variable (w)

theorem flushBuf_makes : Makes device w (w.flushBuf device) (flushPasses w.buf) [] := by
  rw [flushBuf, flushPasses]
  by_cases hnil : w.buf = []
  · rw [if_pos hnil, if_pos hnil]
    have hself : (⟨w.handle, []⟩ : BufWriter N β) = w := by rw [← hnil]
    have hnone : Makes device w (⟨w.handle, []⟩, true) [] [] := w.makes_nil []
    rwa [hself] at hnone
  · rw [if_neg hnil, if_neg hnil]
    exact w.makes_pass w.buf id

theorem store_makes (chunk : List β) :
    Makes device w (w.store device capacity chunk)
      (if capacity ≤ chunk.length then [chunk] else [])
      (if capacity ≤ chunk.length then w.buf else w.buf ++ chunk) := by
  rw [store]
  split
  · exact w.makes_pass chunk fun _ => rfl
  · exact w.makes_nil _

theorem writeAll_makes (chunk : List β) :
    Makes device w (w.writeAll device capacity chunk) (chunkLayout capacity w.buf chunk).1
      (chunkLayout capacity w.buf chunk).2 := by
  rw [writeAll, makeRoom, chunkLayout]
  by_cases hfits : chunk.length < capacity - w.buf.length
  · rw [if_pos hfits, if_pos hfits]
    exact w.makes_nil _
  rw [if_neg hfits, if_neg hfits]
  by_cases hover : capacity - w.buf.length < chunk.length
  · rw [if_pos hover, if_pos hover]
    have hboth := w.flushBuf_makes.andThen fun (w' : BufWriter N β) (hbuf : w'.buf = []) =>
      hbuf ▸ (w'.store_makes chunk : Makes device w' (w'.store device capacity chunk) _ _)
    split_ifs at hboth ⊢ with hlarge
    · exact hboth
    · rwa [List.append_nil, List.nil_append] at hboth
  · rw [if_neg hover, if_neg hover]
    have hstore : Makes device w (w.store device capacity chunk) _ _ := w.store_makes chunk
    -- with room for the chunk, nothing is passed on before it is stored
    change Makes device w (w.store device capacity chunk) _ _
    split_ifs at hstore ⊢ with hlarge
    · exact hstore
    · exact hstore

/-- **The writes succeed exactly if none of their passes fails.** -/
theorem writeChunks_makes (chunks : List (List β)) :
    Makes device w (w.writeChunks device capacity chunks) (layout capacity w.buf chunks).1
      (layout capacity w.buf chunks).2 := by
  induction chunks generalizing w with
  | nil => exact w.makes_nil w.buf
  | cons chunk chunks ih =>
    rw [writeChunks, layout_cons]
    refine (w.writeAll_makes chunk).andThen fun w' hbuf => ?_
    rw [← hbuf]
    exact ih w'

/-- Whether or not the last pass fails, some bytes are written. -/
theorem exists_drop_eq_putAll : ∃ written, (w.drop device).handle = w.handle.putAll written :=
  w.flushBuf_makes.puts

theorem drop_of_not_failsOn (hfails : ¬ device.FailsOn w.handle.passes w.buf) :
    (w.drop device).handle = w.handle.putAll (flushPasses w.buf) := by
  have hmakes : Makes device w (w.flushBuf device) (flushPasses w.buf) [] := w.flushBuf_makes
  have hok := hmakes.ok_iff.mpr ((takesAll_flushPasses device _ w.buf).mpr hfails)
  rw [drop, hmakes.of_ok hok]

/-- **All bytes are taken exactly if the pass of the drop does not fail.** -/
theorem taken_drop_eq_iff {bytes : List β} (hbytes : w.handle.taken ++ w.buf = bytes) :
    (w.drop device).handle.taken = bytes ↔ ¬ device.FailsOn w.handle.passes w.buf := by
  rw [drop, flushBuf]
  by_cases hnil : w.buf = []
  · rw [hnil, List.append_nil] at hbytes
    rw [if_pos hnil, hnil]
    exact iff_of_true hbytes (device.not_failsOn_nil _)
  · have htaken : (w.handle.pass device w.buf).1.taken ++ (w.handle.pass device w.buf).2 = _ :=
      w.handle.pass_taken w.buf
    rw [if_neg hnil, ← w.handle.isEmpty_pass_iff, List.isEmpty_iff, ← hbytes,
      ← htaken, eq_comm]
    exact List.append_right_eq_self

/-- **If the passes before the drop succeed, the bytes of all chunks have been taken exactly if the
pass of the drop does not fail.** -/
theorem taken_drop_writeChunks_iff (files : Files N β) (inode : Nat) {chunks : List (List β)}
    (htakes : device.TakesAll 0 (layout capacity [] chunks).1) :
    (((BufWriter.new files inode).writeChunks device capacity chunks).1.drop device).handle.taken =
        chunks.flatten ↔
      ¬ device.FailsOn (layout capacity [] chunks).1.length (layout capacity [] chunks).2 := by
  have hmakes : Makes device (BufWriter.new files inode)
      ((BufWriter.new files inode).writeChunks device capacity chunks)
      (layout capacity [] chunks).1 (layout capacity [] chunks).2 := writeChunks_makes _ chunks
  have hwrote := hmakes.of_ok (hmakes.ok_iff.mpr htakes)
  have hpasses : ((BufWriter.new files inode).handle.putAll (layout capacity [] chunks).1).passes =
      (layout capacity [] chunks).1.length := by
    rw [Handle.putAll_passes]
    exact Nat.zero_add _
  have hbytes : ((BufWriter.new files inode).handle.putAll (layout capacity [] chunks).1).taken ++
      (layout capacity [] chunks).2 = chunks.flatten := by
    rw [Handle.putAll_taken]
    exact layout_flatten (Nat.zero_le _) chunks
  rw [hwrote, ← hpasses]
  exact taken_drop_eq_iff ⟨_, _⟩ hbytes

end BufWriter

end OpenFiles
