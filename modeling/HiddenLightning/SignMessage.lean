import HiddenLightning.StartupArgs

/-! # What `signmessage` signs

`poll_for_user_input` (`cli.rs`) finds the command of a line with `split_whitespace`, which passes
over white space of any kind before the first word and takes any white space for the end of it.
The message to sign is then cut out of the line itself, from byte 12 on: the length of the word and
one byte.  The two agree if the word stands at the very start of the line and the white space after
it is a single byte (`signed_as_typed_iff`).  If not, the signature is that of another message.
-/
namespace HiddenLightning
open Numerals Words

/-- The word. -/
def signmessageWord : Text := "signmessage".toList

/-- `MSG_STARTPOS`. -/
def msgStartpos : Nat := byteLength signmessageWord + 1

/-- `signmessage`: the bytes that are signed with the key of the node, or the line that is printed
instead. -/
def signmessage (line : Text) : Except Text (List UInt8) :=
  if (utf8Bytes line).length ≤ msgStartpos then .error "ERROR: signmsg requires a message".toList
  else .ok ((utf8Bytes line).drop msgStartpos)

/-- **The message as the user typed it**: all that follows the word and one character of white
space. -/
def TypedMessage (line : Text) (message : List UInt8) : Prop :=
  ∃ lead c rest, line = lead ++ (signmessageWord ++ c :: rest) ∧
    (∀ c' ∈ lead, isWhitespace c' = true) ∧ isWhitespace c = true ∧ message = utf8Bytes rest

/-! ## Bytes of a line -/

/-- The bytes of a line with the word in it. -/
theorem byteLength_line (lead : Text) (c : Char) (rest : Text) :
    byteLength (lead ++ (signmessageWord ++ c :: rest)) =
      byteLength lead + msgStartpos - 1 + c.utf8Size + byteLength rest := by
  rw [byteLength_append, byteLength_append, byteLength_cons, msgStartpos]
  omega

/-- What was signed. -/
theorem signed_eq {line : Text} {message : List UInt8} (h : signmessage line = .ok message) :
    msgStartpos < byteLength line ∧ message = (utf8Bytes line).drop msgStartpos := by
  rw [signmessage, length_utf8Bytes] at h
  split at h
  · cases h
  · cases h
    exact ⟨by omega, rfl⟩

/-! ## Where the line was cut -/

/-- A message signed as it was typed was cut off right behind the word: there is nothing before the
word, and one byte after it. -/
theorem TypedMessage.starts {line : Text} {message : List UInt8}
    (htyped : TypedMessage line message) (h : signmessage line = .ok message) :
    ∃ c rest, line = signmessageWord ++ c :: rest ∧ c.utf8Size = 1 := by
  obtain ⟨lead, c, rest, rfl, -, -, hmessage⟩ := htyped
  obtain ⟨hlong, hdrop⟩ := signed_eq h
  -- both are ends of the line, so they are the same if they are of the same length
  have hlength := congrArg List.length (hmessage.symm.trans hdrop)
  rw [List.length_drop, length_utf8Bytes, length_utf8Bytes] at hlength
  rw [byteLength_line] at hlong hlength
  have hsize := c.utf8Size_pos
  have hpos : 0 < msgStartpos := Nat.succ_pos _
  have hlead : byteLength lead = 0 := by omega
  cases lead with
  | nil => exact ⟨c, rest, rfl, by omega⟩
  | cons c' lead =>
    have := c'.utf8Size_pos
    rw [byteLength_cons] at hlead
    omega

/-- The first word of a line that starts with `signmessage` ends at white space. -/
theorem isWhitespace_after_word {c : Char} {rest : Text} {words : List Text}
    (h : splitWhitespace (signmessageWord ++ c :: rest) = signmessageWord :: words) :
    isWhitespace c = true := by
  obtain ⟨lead, rest', hline, hlead, hrest⟩ := exists_of_splitWhitespace h
  cases lead with
  | nil =>
    rw [List.nil_append, List.append_cancel_left_eq] at hline
    rw [← hline] at hrest
    exact hrest c rfl
  | cons c' lead =>
    -- the line starts with an `s`
    have hs : 's' = c' := (List.cons.inj hline).1
    have hspace := hlead c' List.mem_cons_self
    rw [← hs] at hspace
    exact absurd hspace (by decide)

/-- **A message is signed as it was typed exactly if the word is at the start of the line and the
white space after it is one byte.**  For every line whose first word is `signmessage`. -/
theorem signed_as_typed_iff {line : Text} {words : List Text}
    (hwords : splitWhitespace line = signmessageWord :: words) {message : List UInt8}
    (h : signmessage line = .ok message) :
    TypedMessage line message ↔ ∃ c rest, line = signmessageWord ++ c :: rest ∧ c.utf8Size = 1 := by
  constructor
  · intro htyped
    exact htyped.starts h
  · rintro ⟨c, rest, rfl, hsize⟩
    refine ⟨[], c, rest, rfl, by simp, isWhitespace_after_word hwords, ?_⟩
    have hfront : (utf8Bytes (signmessageWord ++ [c])).length = msgStartpos := by
      rw [length_utf8Bytes, byteLength_append, byteLength_cons, hsize]
      rfl
    have hline : signmessageWord ++ c :: rest = (signmessageWord ++ [c]) ++ rest := by simp
    rw [(signed_eq h).2, hline, utf8Bytes_append, ← hfront, List.drop_left]

/-- An ordinary line. -/
theorem signed_as_typed_hello :
    splitWhitespace "signmessage hello".toList = signmessageWord :: ["hello".toList] ∧
      signmessage "signmessage hello".toList = .ok (utf8Bytes "hello".toList) ∧
      TypedMessage "signmessage hello".toList (utf8Bytes "hello".toList) := by
  have hwords : splitWhitespace "signmessage hello".toList =
      signmessageWord :: ["hello".toList] := by decide
  have hsigned : signmessage "signmessage hello".toList = .ok (utf8Bytes "hello".toList) := by rfl
  exact ⟨hwords, hsigned, (signed_as_typed_iff hwords hsigned).mpr
    ⟨' ', "hello".toList, by decide, by decide⟩⟩

/-- With two spaces before the word, the end of the word is signed too; with a no-break space after
it, half of that is. -/
theorem signed_otherwise :
    splitWhitespace "  signmessage hello".toList = signmessageWord :: ["hello".toList] ∧
      signmessage "  signmessage hello".toList = .ok (utf8Bytes "e hello".toList) ∧
      ¬ TypedMessage "  signmessage hello".toList (utf8Bytes "e hello".toList) ∧
      splitWhitespace "signmessage\u00a0hello".toList = signmessageWord :: ["hello".toList] ∧
      signmessage "signmessage\u00a0hello".toList = .ok (0xa0 :: utf8Bytes "hello".toList) ∧
      ¬ TypedMessage "signmessage\u00a0hello".toList (0xa0 :: utf8Bytes "hello".toList) := by
  have hspaces : signmessage "  signmessage hello".toList = .ok (utf8Bytes "e hello".toList) := by
    rfl
  have hnoBreak : signmessage "signmessage\u00a0hello".toList =
      .ok (0xa0 :: utf8Bytes "hello".toList) := by rfl
  refine ⟨by decide, hspaces, ?_, by decide, hnoBreak, ?_⟩
  · intro htyped
    obtain ⟨c, rest, hline, -⟩ := htyped.starts hspaces
    have hword : "  signmessage hello".toList.take 11 = signmessageWord := by
      rw [hline]
      rfl
    exact absurd hword (by decide)
  · intro htyped
    obtain ⟨c, rest, hline, hsize⟩ := htyped.starts hnoBreak
    have hc : "signmessage\u00a0hello".toList[11]? = some c := by
      rw [hline]
      rfl
    cases hc
    exact absurd hsize (by decide)

end HiddenLightning
