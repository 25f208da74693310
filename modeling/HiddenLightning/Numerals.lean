import Mathlib

/-! # Numbers as text

File names and table keys are built from printed numbers and read back by
parsers.  This module fixes the two notations involved, on lists of characters:

* decimal, as `Display` prints an unsigned integer and `str::parse` reads one
  (`decimal`, `parseUnsigned`): an optional leading `+`, at least one digit, no
  other character, and no value above the type's maximum;
* hexadecimal, two digits a byte, printed in lower case and read in either case
  (`hexOfBytes`, `bytesOfHex`).

In both, reading undoes printing; printing undoes reading up to the case of the digits.
-/
namespace Numerals

/-- A string, as its characters. -/
abbrev Text := List Char

/-! ## Decimal -/

/-- The decimal notation of a number. -/
def decimal (n : Nat) : Text := Nat.toDigits 10 n

/-- The value of a nonempty string of decimal digits. -/
def readDigits (s : Text) : Option Nat :=
  if s ≠ [] ∧ ∀ c ∈ s, c.isDigit then some (Nat.ofDigitChars 10 s 0) else none

/-- Dropping one leading `+`. -/
def withoutPlus : Text → Text
  | '+' :: rest => rest
  | s => s

/-- `str::parse` at an unsigned integer type whose largest value is `bound`. -/
def parseUnsigned (bound : Nat) (s : Text) : Option Nat :=
  (readDigits (withoutPlus s)).filter (· ≤ bound)

theorem isDigit_of_mem_decimal {n : Nat} {c : Char} (h : c ∈ decimal n) : c.isDigit :=
  Nat.isDigit_of_mem_toDigits (by decide) (by decide) h

theorem decimal_ne_nil (n : Nat) : decimal n ≠ [] := Nat.toDigits_ne_nil

theorem notMem_decimal {n : Nat} {c : Char} (hc : c.isDigit = false) : c ∉ decimal n := by
  intro h
  rw [isDigit_of_mem_decimal h] at hc
  cases hc

theorem readDigits_decimal (n : Nat) : readDigits (decimal n) = some n := by
  rw [readDigits, if_pos ⟨decimal_ne_nil n, fun c hc => isDigit_of_mem_decimal hc⟩]
  exact congrArg some Nat.ofDigitChars_ten_toDigits

theorem withoutPlus_decimal (n : Nat) : withoutPlus (decimal n) = decimal n := by
  unfold withoutPlus
  split
  · rename_i rest heq
    have hmem : '+' ∈ decimal n := heq ▸ List.mem_cons_self
    exact absurd hmem (notMem_decimal (by decide))
  · rfl

/-- **Parsing undoes printing**, for every value of the type. -/
theorem parseUnsigned_decimal {bound n : Nat} (h : n ≤ bound) :
    parseUnsigned bound (decimal n) = some n := by
  rw [parseUnsigned, withoutPlus_decimal, readDigits_decimal]
  simp [Option.filter, h]

theorem parseUnsigned_uint16 (n : UInt16) :
    parseUnsigned 65535 (decimal n.toNat) = some n.toNat :=
  parseUnsigned_decimal (Nat.le_of_lt_succ n.toNat_lt)

theorem decimal_injective : Function.Injective decimal := by
  intro a b h
  have ha := readDigits_decimal a
  rw [h, readDigits_decimal b] at ha
  exact (Option.some.inj ha).symm

/-! ## Hexadecimal -/

/-- The value of a hexadecimal digit, in either case. -/
def hexValue (c : Char) : Option Nat :=
  if '0' ≤ c ∧ c ≤ '9' then some (c.toNat - '0'.toNat)
  else if 'a' ≤ c ∧ c ≤ 'f' then some (c.toNat - 'a'.toNat + 10)
  else if 'A' ≤ c ∧ c ≤ 'F' then some (c.toNat - 'A'.toNat + 10)
  else none

/-- The two digits of a byte, high half first. -/
def hexOfByte (b : UInt8) : Text :=
  [Nat.digitChar (b.toNat / 16), Nat.digitChar (b.toNat % 16)]

/-- The digits of a byte string. -/
def hexOfBytes (bs : List UInt8) : Text := bs.flatMap hexOfByte

/-- Reading digits two by two. -/
def bytesOfHex : Text → Option (List UInt8)
  | [] => some []
  | [_] => none
  | hi :: lo :: rest => do
    let h ← hexValue hi
    let l ← hexValue lo
    let bs ← bytesOfHex rest
    pure (UInt8.ofNat (16 * h + l) :: bs)

theorem hexValue_digitChar {n : Nat} (h : n < 16) : hexValue (Nat.digitChar n) = some n := by
  revert n
  decide

theorem isAlphanum_digitChar {n : Nat} (h : n < 16) : (Nat.digitChar n).isAlphanum := by
  revert n
  decide

/-- **Reading undoes printing.** -/
theorem bytesOfHex_hexOfBytes (bs : List UInt8) : bytesOfHex (hexOfBytes bs) = some bs := by
  induction bs with
  | nil => rfl
  | cons b bs ih =>
    have hhi : b.toNat / 16 < 16 := by have := b.toNat_lt; omega
    have hlo : b.toNat % 16 < 16 := by omega
    have hbyte : UInt8.ofNat (16 * (b.toNat / 16) + b.toNat % 16) = b := by
      rw [Nat.div_add_mod, UInt8.ofNat_toNat]
    show bytesOfHex (_ :: _ :: hexOfBytes bs) = _
    rw [bytesOfHex, hexValue_digitChar hhi, hexValue_digitChar hlo, ih]
    exact congrArg (fun x => some (x :: bs)) hbyte

theorem length_hexOfBytes (bs : List UInt8) : (hexOfBytes bs).length = 2 * bs.length := by
  induction bs with
  | nil => rfl
  | cons b bs ih =>
    show (_ :: _ :: hexOfBytes bs).length = _
    rw [List.length_cons, List.length_cons, List.length_cons, ih]
    omega

theorem exists_digitChar_of_mem_hexOfBytes {bs : List UInt8} {c : Char} (h : c ∈ hexOfBytes bs) :
    ∃ n < 16, c = Nat.digitChar n := by
  obtain ⟨b, -, hc⟩ := List.mem_flatMap.mp h
  have hlt := b.toNat_lt
  rcases List.mem_cons.mp hc with hc | hc
  · exact ⟨b.toNat / 16, by omega, hc⟩
  · exact ⟨b.toNat % 16, by omega, List.mem_singleton.mp hc⟩

theorem isAlphanum_of_mem_hexOfBytes {bs : List UInt8} {c : Char} (h : c ∈ hexOfBytes bs) :
    c.isAlphanum := by
  obtain ⟨n, hn, rfl⟩ := exists_digitChar_of_mem_hexOfBytes h
  exact isAlphanum_digitChar hn

theorem toLower_of_mem_hexOfBytes {bs : List UInt8} {c : Char} (h : c ∈ hexOfBytes bs) :
    c.toLower = c := by
  have hall : ∀ n < 16, (Nat.digitChar n).toLower = Nat.digitChar n := by decide
  obtain ⟨n, hn, rfl⟩ := exists_digitChar_of_mem_hexOfBytes h
  exact hall n hn

/-- A letter in upper case has the same value. -/
theorem hexValue_toUpper {bs : List UInt8} {c : Char} (h : c ∈ hexOfBytes bs) :
    hexValue c.toUpper = hexValue c := by
  have hall : ∀ n < 16, hexValue (Nat.digitChar n).toUpper = hexValue (Nat.digitChar n) := by
    decide
  obtain ⟨n, hn, rfl⟩ := exists_digitChar_of_mem_hexOfBytes h
  exact hall n hn

theorem toNat_lt_of_hexValue {c : Char} {n : Nat} (h : hexValue c = some n) : c.toNat < 128 := by
  have hle : ∀ {d : Char}, d.toNat < 128 → c ≤ d → c.toNat < 128 :=
    fun hd hcd => Nat.lt_of_le_of_lt (UInt32.le_iff_toNat_le.mp hcd) hd
  unfold hexValue at h
  split_ifs at h with hdigit hlower hupper
  · exact hle (d := '9') (by decide) hdigit.2
  · exact hle (d := 'f') (by decide) hlower.2
  · exact hle (d := 'F') (by decide) hupper.2

/-- A digit is that of its value, up to case. -/
theorem digitChar_of_hexValue {c : Char} {n : Nat} (h : hexValue c = some n) :
    n < 16 ∧ Nat.digitChar n = c.toLower := by
  have hall : ∀ k < 128, ∀ n ∈ hexValue (Char.ofNat k),
      n < 16 ∧ Nat.digitChar n = (Char.ofNat k).toLower := by
    decide
  have hc := hall c.toNat (toNat_lt_of_hexValue h) n
  rw [Char.ofNat_toNat] at hc
  exact hc h

/-- Only the values of the digits matter. -/
theorem bytesOfHex_congr {s t : Text} (h : s.map hexValue = t.map hexValue) :
    bytesOfHex s = bytesOfHex t := by
  induction s using bytesOfHex.induct generalizing t with
  | case1 =>
    rw [List.map_nil] at h
    rw [List.map_eq_nil_iff.mp h.symm]
  | case2 c =>
    obtain ⟨d, t, rfl, hd, ht⟩ := List.map_eq_cons_iff.mp h.symm
    rw [List.map_eq_nil_iff.mp ht]
    rfl
  | case3 hi lo rest ih =>
    obtain ⟨hi', t, rfl, hhi, ht⟩ := List.map_eq_cons_iff.mp h.symm
    obtain ⟨lo', rest', rfl, hlo, hrest⟩ := List.map_eq_cons_iff.mp ht
    rw [bytesOfHex, bytesOfHex, hhi, hlo, ih hrest.symm]

/-- **Printing undoes reading, up to case.** -/
theorem hexOfBytes_of_bytesOfHex {s : Text} {bs : List UInt8} (h : bytesOfHex s = some bs) :
    hexOfBytes bs = s.map Char.toLower := by
  induction s using bytesOfHex.induct generalizing bs with
  | case1 =>
    cases h
    rfl
  | case2 => cases h
  | case3 hi lo rest ih =>
    rw [bytesOfHex] at h
    obtain ⟨high, hhigh, h⟩ := Option.bind_eq_some_iff.mp h
    obtain ⟨low, hlow, h⟩ := Option.bind_eq_some_iff.mp h
    obtain ⟨bytes, hbytes, h⟩ := Option.bind_eq_some_iff.mp h
    cases h
    obtain ⟨hhighLt, hhighChar⟩ := digitChar_of_hexValue hhigh
    obtain ⟨hlowLt, hlowChar⟩ := digitChar_of_hexValue hlow
    have hnat : (UInt8.ofNat (16 * high + low)).toNat = 16 * high + low :=
      UInt8.toNat_ofNat_of_lt (by show _ < 256; omega)
    show hexOfByte _ ++ hexOfBytes bytes = _
    rw [hexOfByte, hnat, ih hbytes, show (16 * high + low) / 16 = high by omega,
      show (16 * high + low) % 16 = low by omega, hhighChar, hlowChar]
    rfl

end Numerals
