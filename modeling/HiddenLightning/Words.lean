import HiddenLightning.Numerals

/-! # Words and byte slices

A string here is a list of characters, and its length in bytes is that of its UTF-8 encoding.
`splitWhitespace` cuts a line into words, the first of which stands where
`exists_of_splitWhitespace` says; `sliceTo` takes the first bytes of a string as a slice
`&s[0..n]` does, which fails when there are too few or when byte `n` is in the middle of a
character (`isSome_sliceTo_iff`).  `readLine` decodes a line of bytes.
-/
namespace Words
open Numerals

/-- `char::is_whitespace`: the characters with the property `White_Space`. -/
def isWhitespace (c : Char) : Bool :=
  let n := c.toNat
  (0x9 ≤ n && n ≤ 0xd) || n == 0x20 || n == 0x85 || n == 0xa0 || n == 0x1680 ||
    (0x2000 ≤ n && n ≤ 0x200a) || n == 0x2028 || n == 0x2029 || n == 0x202f || n == 0x205f ||
    n == 0x3000

/-- `str::split_whitespace`. -/
def splitWhitespace (s : Text) : List Text := (s.splitOnP isWhitespace).filter (· ≠ [])

/-- White space before the first word is passed over. -/
theorem splitWhitespace_cons_whitespace {c : Char} (hc : isWhitespace c = true) (s : Text) :
    splitWhitespace (c :: s) = splitWhitespace s := by
  have hsplit : (c :: s).splitOnP isWhitespace = [] :: s.splitOnP isWhitespace := by
    rw [List.splitOnP_cons_eq_if_modifyHead, if_pos hc]
  rw [splitWhitespace, hsplit]
  simp [splitWhitespace]

/-- A word ends at the end of the string or at white space. -/
theorem splitWhitespace_append {word rest : Text} (hne : word ≠ [])
    (hword : ∀ c ∈ word, isWhitespace c = false)
    (hrest : ∀ c ∈ rest.head?, isWhitespace c = true) :
    splitWhitespace (word ++ rest) = word :: splitWhitespace rest := by
  cases rest with
  | nil =>
    rw [List.append_nil, splitWhitespace, List.splitOnP_eq_singleton hword]
    simp [splitWhitespace, hne]
  | cons c rest =>
    have hc : isWhitespace c = true := hrest c rfl
    rw [splitWhitespace_cons_whitespace hc, splitWhitespace,
      List.splitOnP_append_cons_of_forall_mem hword c hc]
    simp [splitWhitespace, hne]

/-- **Where the first word stands**: after white space only, and before white space or the end. -/
theorem exists_of_splitWhitespace {s word : Text} {words : List Text}
    (h : splitWhitespace s = word :: words) :
    ∃ lead rest, s = lead ++ (word ++ rest) ∧ (∀ c ∈ lead, isWhitespace c = true) ∧
      ∀ c ∈ rest.head?, isWhitespace c = true := by
  induction s with
  | nil => cases h
  | cons c s ih =>
    cases hc : isWhitespace c with
    | true =>
      rw [splitWhitespace_cons_whitespace hc] at h
      obtain ⟨lead, rest, rfl, hlead, hrest⟩ := ih h
      refine ⟨c :: lead, rest, rfl, ?_, hrest⟩
      intro c' hc'
      rcases List.mem_cons.mp hc' with rfl | hc'
      · exact hc
      · exact hlead c' hc'
    | false =>
      have hparts := List.takeWhile_append_dropWhile (p := fun c => !isWhitespace c) (l := c :: s)
      have hne : (c :: s).takeWhile (fun c => !isWhitespace c) ≠ [] := by
        rw [List.takeWhile_cons_of_pos (by rw [hc]; rfl)]
        exact List.cons_ne_nil _ _
      have hword : ∀ c' ∈ (c :: s).takeWhile (fun c => !isWhitespace c),
          isWhitespace c' = false := by
        intro c' hc'
        simpa using List.mem_takeWhile_imp hc'
      have hrest : ∀ c' ∈ ((c :: s).dropWhile (fun c => !isWhitespace c)).head?,
          isWhitespace c' = true := by
        intro c' hc'
        have := List.head?_dropWhile_not (fun c => !isWhitespace c) (c :: s)
        rw [hc'] at this
        simpa using this
      rw [← hparts, splitWhitespace_append hne hword hrest, List.cons.injEq] at h
      rw [h.1] at hparts
      exact ⟨[], _, hparts.symm, by simp, hrest⟩

/-- A line of bytes as a string, if it is one. -/
def readLine (bytes : ByteArray) : Option Text := bytes.utf8Decode?.map Array.toList

theorem readLine_utf8Encode (s : Text) : readLine s.utf8Encode = some s := by
  rw [readLine, List.utf8Decode?_utf8Encode]
  rfl

/-- `str::len`. -/
def byteLength (s : Text) : Nat := (s.map Char.utf8Size).sum

theorem byteLength_cons (c : Char) (s : Text) : byteLength (c :: s) = c.utf8Size + byteLength s :=
  List.sum_cons ..

theorem byteLength_append (s t : Text) : byteLength (s ++ t) = byteLength s + byteLength t := by
  rw [byteLength, List.map_append, List.sum_append]
  rfl

/-- In ASCII a character is a byte. -/
theorem byteLength_of_ascii {s : Text} (h : ∀ c ∈ s, c.toNat < 128) : byteLength s = s.length := by
  induction s with
  | nil => rfl
  | cons c s ih =>
    have hc : c.toNat < 128 := h c List.mem_cons_self
    have hsize : c.utf8Size = 1 := by
      rw [Char.utf8Size_eq_one_iff, UInt32.le_iff_toNat_le]
      exact Nat.le_of_lt_succ hc
    rw [byteLength_cons, hsize, ih fun c' hc' => h c' (List.mem_cons_of_mem _ hc'),
      List.length_cons]
    omega

/-- The slice `&s[0..n]`; `none` when it panics. -/
def sliceTo : Nat → Text → Option Text
  | 0, _ => some []
  | _ + 1, [] => none
  | n + 1, c :: s =>
    if c.utf8Size ≤ n + 1 then (sliceTo (n + 1 - c.utf8Size) s).map (c :: ·) else none

/-- Byte `n` is where a character ends, or the string does. -/
def CutsAt (n : Nat) (s : Text) : Prop := ∃ front back, s = front ++ back ∧ byteLength front = n

theorem sliceTo_append (front back : Text) :
    sliceTo (byteLength front) (front ++ back) = some front := by
  induction front with
  | nil =>
    show sliceTo 0 back = some []
    rw [sliceTo]
  | cons c front ih =>
    have hpos := c.utf8Size_pos
    obtain ⟨n, hn⟩ : ∃ n, byteLength (c :: front) = n + 1 :=
      ⟨byteLength (c :: front) - 1, by rw [byteLength_cons]; omega⟩
    have hrest : n + 1 - c.utf8Size = byteLength front := by
      rw [← hn, byteLength_cons]
      omega
    have hle : c.utf8Size ≤ n + 1 := by
      rw [← hn, byteLength_cons]
      omega
    rw [hn, List.cons_append, sliceTo, if_pos hle, hrest, ih]
    rfl

theorem exists_of_sliceTo {n : Nat} {s front : Text} (h : sliceTo n s = some front) :
    ∃ back, s = front ++ back ∧ byteLength front = n := by
  induction s generalizing n front with
  | nil =>
    cases n with
    | zero =>
      cases h
      exact ⟨[], rfl, rfl⟩
    | succ n => cases h
  | cons c s ih =>
    cases n with
    | zero =>
      cases h
      exact ⟨c :: s, rfl, rfl⟩
    | succ n =>
      rw [sliceTo] at h
      split at h
      · rename_i hle
        obtain ⟨front', hfront', rfl⟩ := Option.map_eq_some_iff.mp h
        obtain ⟨back, rfl, hlength⟩ := ih hfront'
        refine ⟨back, rfl, ?_⟩
        rw [byteLength_cons, hlength]
        omega
      · cases h

/-- **A slice fails exactly if it would cut a character**, or there are too few bytes. -/
theorem isSome_sliceTo_iff (n : Nat) (s : Text) : (sliceTo n s).isSome ↔ CutsAt n s := by
  constructor
  · intro h
    obtain ⟨front, hfront⟩ := Option.isSome_iff_exists.mp h
    obtain ⟨back, heq, hlength⟩ := exists_of_sliceTo hfront
    exact ⟨front, back, heq, hlength⟩
  · rintro ⟨front, back, rfl, rfl⟩
    rw [sliceTo_append]
    rfl

end Words
