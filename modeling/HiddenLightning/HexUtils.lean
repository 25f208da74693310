import HiddenLightning.PeerInfo
import HiddenLightning.StartupArgs

/-! # Hexadecimal, byte by byte

`to_vec` (`hex_utils.rs`) is one loop over the bytes of its argument.  Every digit is shifted into
`b`, a `u8`, and at every odd index `b` goes to the output and starts again at zero.  Nothing is
said at the end of the loop about a digit that is still in `b`.

The commands read digits two by two; `toVec_eq_pairs` says that this is what the loop does.  So
`to_vec` undoes `hex_str` in either case (`toVec_undoes_hexStr`), and what it accepts is a whole
encoding exactly if the number of digits is even (`whole_encoding_iff`).
-/
namespace HiddenLightning
namespace HexUtils
open Numerals Words

/-! ## The two functions -/

/-- The arms of the `match` in `to_vec`. -/
def digit (c : UInt8) : Option UInt8 :=
  if 'A'.toUInt8 ≤ c ∧ c ≤ 'F'.toUInt8 then some (c - 'A'.toUInt8 + 10)
  else if 'a'.toUInt8 ≤ c ∧ c ≤ 'f'.toUInt8 then some (c - 'a'.toUInt8 + 10)
  else if '0'.toUInt8 ≤ c ∧ c ≤ '9'.toUInt8 then some (c - '0'.toUInt8)
  else none

/-- The loop of `to_vec` from index `idx` on, over the bytes that are left. -/
def toVecFrom (idx : Nat) (b : UInt8) (out : List UInt8) : List UInt8 → Option (List UInt8)
  | [] => some out
  | c :: bytes =>
    match digit c with
    | none => none
    | some d =>
      let b := (b <<< 4) ||| d
      if idx &&& 1 = 1 then toVecFrom (idx + 1) 0 (out ++ [b]) bytes
      else toVecFrom (idx + 1) b out bytes

/-- `to_vec`. -/
def toVec (hex : Text) : Option (List UInt8) := toVecFrom 0 0 [] (utf8Bytes hex)

/-- `format!("{:02x}", v)`. -/
def lowerHex (v : UInt8) : Text := List.leftpad 2 '0' (Nat.toDigits 16 v.toNat)

/-- `hex_str`. -/
def hexStr (value : List UInt8) : Text := value.foldl (fun res v => res ++ lowerHex v) []

/-! ## Printing -/

theorem lowerHex_eq (v : UInt8) : lowerHex v = hexOfByte v := by
  have hall : ∀ n < 256, List.leftpad 2 '0' (Nat.toDigits 16 n) =
      [Nat.digitChar (n / 16), Nat.digitChar (n % 16)] := by
    decide +kernel
  exact hall v.toNat v.toNat_lt

theorem hexStr_eq (value : List UInt8) : hexStr value = hexOfBytes value := by
  have happend : ∀ res : Text,
      value.foldl (fun res v => res ++ lowerHex v) res = res ++ hexOfBytes value := by
    induction value with
    | nil => intro res; exact (List.append_nil res).symm
    | cons v value ih =>
      intro res
      rw [List.foldl_cons, ih, lowerHex_eq, List.append_assoc]
      rfl
  exact happend []

/-! ## Reading, one character -/

/-- A digit is one byte, and it has its value. -/
theorem utf8EncodeChar_of_hexValue {c : Char} {n : Nat} (h : hexValue c = some n) :
    ∃ byte, String.utf8EncodeChar c = [byte] ∧ digit byte = some (UInt8.ofNat n) := by
  have hall : ∀ k < 128, ∀ n ∈ hexValue (Char.ofNat k),
      String.utf8EncodeChar (Char.ofNat k) = [UInt8.ofNat k] ∧
        digit (UInt8.ofNat k) = some (UInt8.ofNat n) := by
    decide
  have hc := hall c.toNat (toNat_lt_of_hexValue h) n
  rw [Char.ofNat_toNat] at hc
  exact ⟨_, hc h⟩

/-- Any other character, of one byte or of several, is refused at its first byte. -/
theorem utf8EncodeChar_of_not_digit {c : Char} (h : hexValue c = none) :
    ∃ byte bytes, String.utf8EncodeChar c = byte :: bytes ∧ digit byte = none := by
  have hlead : ∀ n < 256, 128 ≤ n → digit (UInt8.ofNat n) = none := by decide +kernel
  have hascii : ∀ k < 128, hexValue (Char.ofNat k) = none → digit (UInt8.ofNat k) = none := by
    decide
  unfold String.utf8EncodeChar
  dsimp only
  split_ifs with h₁ h₂ h₃
  · refine ⟨_, _, rfl, hascii c.toNat (Nat.lt_succ_of_le h₁) ?_⟩
    rw [Char.ofNat_toNat]
    exact h
  · exact ⟨_, _, rfl, hlead _ (by omega) (by omega)⟩
  · exact ⟨_, _, rfl, hlead _ (by omega) (by omega)⟩
  · exact ⟨_, _, rfl, hlead _ (by omega) (by omega)⟩

/-! ## Reading, the loop -/

section
variable (idx : Nat) (b : UInt8) (out : List UInt8)

theorem toVecFrom_of_digit {c : Char} {n : Nat} (h : hexValue c = some n) (s : Text) :
    toVecFrom idx b out (utf8Bytes (c :: s)) =
      if idx &&& 1 = 1 then
        toVecFrom (idx + 1) 0 (out ++ [(b <<< 4) ||| UInt8.ofNat n]) (utf8Bytes s)
      else toVecFrom (idx + 1) ((b <<< 4) ||| UInt8.ofNat n) out (utf8Bytes s) := by
  obtain ⟨byte, hencode, hdigit⟩ := utf8EncodeChar_of_hexValue h
  rw [utf8Bytes, List.flatMap_cons, hencode, List.singleton_append, toVecFrom, hdigit]
  rfl

theorem toVecFrom_of_not_digit {c : Char} (h : hexValue c = none) (s : Text) :
    toVecFrom idx b out (utf8Bytes (c :: s)) = none := by
  obtain ⟨byte, bytes, hencode, hdigit⟩ := utf8EncodeChar_of_not_digit h
  rw [utf8Bytes, List.flatMap_cons, hencode, List.cons_append, toVecFrom, hdigit]

end

/-- Two digits in `b`: the shift of the second loses nothing. -/
theorem shift_digits {high low : Nat} (hhigh : high < 16) (hlow : low < 16) :
    ((((0 : UInt8) <<< 4) ||| UInt8.ofNat high) <<< 4) ||| UInt8.ofNat low =
      UInt8.ofNat (16 * high + low) := by
  have hall : ∀ high < 16, ∀ low < 16,
      ((((0 : UInt8) <<< 4) ||| UInt8.ofNat high) <<< 4) ||| UInt8.ofNat low =
        UInt8.ofNat (16 * high + low) := by
    decide
  exact hall high hhigh low hlow

/-- **The loop from an even index on**: `b` is zero there, and the rest is read in pairs. -/
theorem toVecFrom_even {idx : Nat} (hidx : idx % 2 = 0) (out : List UInt8) (s : Text) :
    toVecFrom idx 0 out (utf8Bytes s) = (HiddenLightning.toVec s).map (out ++ ·) := by
  have heven : ∀ {idx : Nat}, idx % 2 = 0 → ¬ idx &&& 1 = 1 := by
    intro idx hidx
    rw [Nat.and_one_is_mod]
    omega
  have hodd : ∀ {idx : Nat}, idx % 2 = 0 → (idx + 1) &&& 1 = 1 := by
    intro idx hidx
    rw [Nat.and_one_is_mod]
    omega
  induction s using HiddenLightning.toVec.induct generalizing idx out with
  | case1 => simp [utf8Bytes, toVecFrom, HiddenLightning.toVec]
  | case2 c =>
    cases hc : hexValue c with
    | none => rw [toVecFrom_of_not_digit _ _ _ hc, HiddenLightning.toVec, hc]; rfl
    | some n =>
      -- the loop ends with the digit in `b`
      rw [toVecFrom_of_digit _ _ _ hc, if_neg (heven hidx), HiddenLightning.toVec, hc]
      simp [utf8Bytes, toVecFrom]
  | case3 hi lo rest ih =>
    rw [HiddenLightning.toVec]
    cases hhi : hexValue hi with
    | none => rw [toVecFrom_of_not_digit _ _ _ hhi]; rfl
    | some high =>
      rw [toVecFrom_of_digit _ _ _ hhi, if_neg (heven hidx)]
      cases hlo : hexValue lo with
      | none => rw [toVecFrom_of_not_digit _ _ _ hlo]; rfl
      | some low =>
        have hbyte := shift_digits (digitChar_of_hexValue hhi).1 (digitChar_of_hexValue hlo).1
        rw [toVecFrom_of_digit _ _ _ hlo, if_pos (hodd hidx), hbyte, ih (by omega)]
        cases HiddenLightning.toVec rest with
        | none => rfl
        | some bytes => simp

/-- **The loop reads in pairs.** -/
theorem toVec_eq_pairs (hex : Text) : toVec hex = HiddenLightning.toVec hex := by
  rw [toVec, toVecFrom_even rfl]
  simp

/-! ## Reading what was printed -/

/-- The values of digits some of which are in upper case. -/
theorem map_hexValue_of_upper {s t : Text} (ht : ∀ c ∈ t, hexValue c.toUpper = hexValue c)
    (h : List.Forall₂ (fun c d => c = d ∨ c = d.toUpper) s t) :
    s.map hexValue = t.map hexValue := by
  induction h with
  | nil => rfl
  | @cons c d s t hc _ ih =>
    have hvalue : hexValue c = hexValue d := by
      rcases hc with rfl | rfl
      · rfl
      · exact ht d List.mem_cons_self
    rw [List.map_cons, List.map_cons, hvalue, ih fun c' hc' => ht c' (List.mem_cons_of_mem _ hc')]

/-- The digits of bytes, some of them perhaps in upper case, are read as the bytes. -/
theorem toVec_of_upper {bs : List UInt8} {s : Text}
    (h : List.Forall₂ (fun c d => c = d ∨ c = d.toUpper) s (hexStr bs)) : toVec s = some bs := by
  rw [hexStr_eq] at h
  have heven : s.length % 2 = 0 := by
    rw [h.length_eq, length_hexOfBytes]
    omega
  rw [toVec_eq_pairs, toVec_eq_bytesOfHex heven,
    bytesOfHex_congr (map_hexValue_of_upper (fun c hc => hexValue_toUpper hc) h),
    bytesOfHex_hexOfBytes]

/-- **`to_vec` undoes `hex_str`**, also when any of the letters are in upper case, so no two byte
strings are printed alike. -/
theorem toVec_undoes_hexStr :
    (∀ bs, toVec (hexStr bs) = some bs) ∧
    (∀ bs s, List.Forall₂ (fun c d => c = d ∨ c = d.toUpper) s (hexStr bs) → toVec s = some bs) ∧
    Function.Injective hexStr := by
  have hundo : ∀ bs, toVec (hexStr bs) = some bs := fun bs =>
    toVec_of_upper (List.forall₂_same.mpr fun c _ => Or.inl rfl)
  refine ⟨hundo, fun bs s => toVec_of_upper, ?_⟩
  intro bs bs' h
  have hbs := hundo bs
  rw [h, hundo] at hbs
  exact (Option.some.inj hbs).symm

/-! ## What is accepted -/

/-- Every string of digits is accepted, -/
theorem exists_toVec {s : Text} (h : ∀ c ∈ s, hexValue c ≠ none) : ∃ v, toVec s = some v := by
  rw [toVec_eq_pairs]
  induction s using HiddenLightning.toVec.induct with
  | case1 => exact ⟨[], rfl⟩
  | case2 c =>
    obtain ⟨n, hn⟩ := Option.ne_none_iff_exists'.mp (h c List.mem_cons_self)
    exact ⟨[], by rw [HiddenLightning.toVec, hn]; rfl⟩
  | case3 hi lo rest ih =>
    obtain ⟨high, hhigh⟩ := Option.ne_none_iff_exists'.mp (h hi List.mem_cons_self)
    obtain ⟨low, hlow⟩ :=
      Option.ne_none_iff_exists'.mp (h lo (List.mem_cons_of_mem _ List.mem_cons_self))
    obtain ⟨v, hv⟩ := ih fun c hc => h c (List.mem_cons_of_mem _ (List.mem_cons_of_mem _ hc))
    exact ⟨_, by rw [HiddenLightning.toVec, hhigh, hlow, hv]; rfl⟩

/-- and no other. -/
theorem hexValue_ne_none {s : Text} {v : List UInt8} (h : toVec s = some v) :
    ∀ c ∈ s, hexValue c ≠ none := by
  rw [toVec_eq_pairs] at h
  intro c hc
  obtain ⟨n, hn⟩ := exists_hexValue_of_toVec h c hc
  rw [hn]
  exact Option.some_ne_none n

/-- A digit after pairs is read and dropped. -/
theorem toVec_append_digit {s : Text} (hs : s.length % 2 = 0) {c : Char} (hc : hexValue c ≠ none) :
    HiddenLightning.toVec (s ++ [c]) = HiddenLightning.toVec s := by
  obtain ⟨n, hn⟩ := Option.ne_none_iff_exists'.mp hc
  induction s using HiddenLightning.toVec.induct with
  | case1 => simp [HiddenLightning.toVec, hn]
  | case2 d =>
    rw [List.length_singleton] at hs
    omega
  | case3 hi lo rest ih =>
    rw [List.length_cons, List.length_cons] at hs
    rw [List.cons_append, List.cons_append, HiddenLightning.toVec, HiddenLightning.toVec,
      ih (by omega)]

/-- So `closechannel` and `forceclosechannel` take a channel id with a digit too many for the one
without it. -/
theorem closing_append_digit {E : Secp256k1} (name : String)
    (request : List UInt8 → PublicKey E → Request E) {channelId : Text}
    (hid : channelId.length % 2 = 0) {c : Char} (hc : hexValue c ≠ none) (words : List Text) :
    closing name request ((channelId ++ [c]) :: words) =
      closing name request (channelId :: words) := by
  rw [closing, closing, toVec_append_digit hid hc]

/-- **What is accepted is a whole encoding exactly if the string has an even number of bytes**, or
nothing is accepted because some character is no digit.  For every string. -/
theorem whole_encoding_iff (s : Text) :
    (∀ v, toVec s = some v → byteLength s % 2 = 0 ∧ hexStr v = s.map Char.toLower) ↔
      byteLength s % 2 = 0 ∨ ∃ c ∈ s, hexValue c = none := by
  constructor
  · intro h
    by_cases hdigits : ∃ c ∈ s, hexValue c = none
    · exact Or.inr hdigits
    · obtain ⟨v, hv⟩ := exists_toVec fun c hc hnone => hdigits ⟨c, hc, hnone⟩
      exact Or.inl (h v hv).1
  · rintro (heven | ⟨c, hc, hnone⟩)
    · intro v hv
      refine ⟨heven, ?_⟩
      rw [toVec_eq_pairs] at hv
      rw [byteLength_of_ascii (toNat_lt_of_toVec hv)] at heven
      rw [toVec_eq_bytesOfHex heven] at hv
      rw [hexStr_eq, hexOfBytes_of_bytesOfHex hv]
    · intro v hv
      exact absurd hnone (hexValue_ne_none hv c hc)

/-- A channel id of 65 digits is accepted as one of 64, by `to_vec` and by `closechannel`. -/
theorem last_digit_dropped :
    toVec (List.replicate 65 'a') = some (List.replicate 32 0xaa) ∧
      hexStr (List.replicate 32 0xaa) ≠ (List.replicate 65 'a').map Char.toLower ∧
      closechannel [List.replicate 65 'a', firstKey.toText] =
        ask [] (.closeChannel (List.replicate 32 0xaa) firstKey) := by
  refine ⟨by decide, by decide, by rfl⟩

end HexUtils
end HiddenLightning
