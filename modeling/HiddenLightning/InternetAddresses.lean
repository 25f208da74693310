import HiddenLightning.Numerals

/-! # Internet addresses as text

`IpAddr.fromStr` reads an address as the standard library does.  An IPv4 address is four
decimal numbers up to 255 with dots between them, without leading zeros.  An IPv6 address is eight
groups of up to four hexadecimal digits with colons between them; once, `::` may stand for one
or more groups of zeros, and the last two groups may be written as an IPv4 address.  Nothing
may follow.

A reader gives back the rest of the text, and no reader consumes anything when it fails.  Every
address has a text that is read as this address (`fromStr_toText`).
-/
namespace InternetAddresses
open Numerals

/-! ## Numbers -/

/-- `char::to_digit`. -/
def toDigit (radix : Nat) (c : Char) : Option Nat := (hexValue c).filter (· < radix)

/-- The digits that a text begins with. -/
def leadingDigits (radix : Nat) (s : Text) : Text := s.takeWhile fun c => (toDigit radix c).isSome

/-- The number that digits stand for. -/
def valueIn (radix : Nat) (digits : Text) : Nat :=
  digits.foldl (fun n c => radix * n + (toDigit radix c).getD 0) 0

/-- `read_number`: as many digits as there are, but at most `maxDigits` of them, and a number that
fits its type. -/
def readNumber (radix bound maxDigits : Nat) (allowZeroPrefix : Bool) (s : Text) :
    Option (Nat × Text) :=
  let digits := leadingDigits radix s
  if digits = [] ∨ maxDigits < digits.length ∨ bound < valueIn radix digits then none
  else if !allowZeroPrefix ∧ digits.head? = some '0' ∧ 1 < digits.length then none
  else some (valueIn radix digits, s.drop digits.length)

/-- `read_given_char`. -/
def readGivenChar (target : Char) : Text → Option Text
  | [] => none
  | c :: rest => if c = target then some rest else none

/-- `read_separator`: no separator stands before the first item. -/
def readSeparator {α : Type} (separator : Char) (index : Nat)
    (inner : Text → Option (α × Text)) (s : Text) : Option (α × Text) :=
  if 0 < index then (readGivenChar separator s).bind inner else inner s

/-! ## Addresses -/

/-- `Ipv4Addr`. -/
structure Ipv4Addr where
  a : UInt8
  b : UInt8
  c : UInt8
  d : UInt8
deriving DecidableEq

/-- `Ipv6Addr`, as its segments. -/
structure Ipv6Addr where
  segments : List UInt16
  length_segments : segments.length = 8
deriving DecidableEq

/-- `IpAddr`. -/
inductive IpAddr where
  | v4 (addr : Ipv4Addr)
  | v6 (addr : Ipv6Addr)
deriving DecidableEq

/-- The bytes of an address, in network order. -/
def Ipv4Addr.octets (addr : Ipv4Addr) : List UInt8 := [addr.a, addr.b, addr.c, addr.d]

/-- The two bytes of a segment. -/
def segmentOctets (segment : UInt16) : List UInt8 := [(segment >>> 8).toUInt8, segment.toUInt8]

/-- The bytes of an address, in network order. -/
def Ipv6Addr.octets (addr : Ipv6Addr) : List UInt8 := addr.segments.flatMap segmentOctets

theorem Ipv6Addr.length_octets (addr : Ipv6Addr) : addr.octets.length = 16 := by
  have htwo : ∀ segments : List UInt16,
      (segments.flatMap segmentOctets).length = 2 * segments.length := by
    intro segments
    induction segments with
    | nil => rfl
    | cons segment segments ih =>
      rw [List.flatMap_cons, List.length_append, ih, List.length_cons]
      show 2 + _ = _
      omega
  rw [octets, htwo, addr.length_segments]

/-- The last two segments of an address that ends in an IPv4 address. -/
def Ipv4Addr.segments (addr : Ipv4Addr) : List UInt16 :=
  [addr.a.toUInt16 <<< 8 ||| addr.b.toUInt16, addr.c.toUInt16 <<< 8 ||| addr.d.toUInt16]

/-- One of the numbers of an IPv4 address. -/
def readOctet (s : Text) : Option (UInt8 × Text) :=
  (readNumber 10 255 3 false s).map fun read => (UInt8.ofNat read.1, read.2)

/-- `read_ipv4_addr`. -/
def readIpv4Addr (s : Text) : Option (Ipv4Addr × Text) := do
  let (a, s) ← readOctet s
  let (b, s) ← readSeparator '.' 1 readOctet s
  let (c, s) ← readSeparator '.' 2 readOctet s
  let (d, s) ← readSeparator '.' 3 readOctet s
  pure (⟨a, b, c, d⟩, s)

/-- One of the groups of an IPv6 address. -/
def readGroup (s : Text) : Option (UInt16 × Text) :=
  (readNumber 16 65535 4 true s).map fun read => (UInt16.ofNat read.1, read.2)

/-- `read_groups`, with `left` groups to read from number `index` on: the groups, whether they end
in an IPv4 address, and the rest. -/
def readGroups : (left index : Nat) → Text → List UInt16 × Bool × Text
  | 0, _, s => ([], false, s)
  | left + 1, index, s =>
    -- an IPv4 address takes two groups
    match (if 0 < left then readSeparator ':' index readIpv4Addr s else none) with
    | some (addr, rest) => (addr.segments, true, rest)
    | none =>
      match readSeparator ':' index readGroup s with
      | none => ([], false, s)
      | some (group, rest) =>
        let (groups, ipv4, rest) := readGroups left (index + 1) rest
        (group :: groups, ipv4, rest)

theorem length_readGroups_le (left index : Nat) (s : Text) :
    (readGroups left index s).1.length ≤ left := by
  induction left generalizing index s with
  | zero => exact le_rfl
  | succ left ih =>
    rw [readGroups]
    split
    · rename_i addr rest haddr
      -- there was room for two groups
      have hleft : 0 < left := by
        by_contra hleft
        rw [if_neg hleft] at haddr
        cases haddr
      show addr.segments.length ≤ left + 1
      have hlength : addr.segments.length = 2 := rfl
      omega
    · split
      · exact Nat.zero_le _
      · rename_i group rest _
        exact Nat.succ_le_succ (ih (index + 1) rest)

/-- The groups before and after `::`. -/
def Ipv6Addr.ofParts (head tail : List UInt16) (h : head.length + tail.length ≤ 8) : Ipv6Addr where
  segments := head ++ List.replicate (8 - tail.length - head.length) 0 ++ tail
  length_segments := by
    rw [List.length_append, List.length_append, List.length_replicate]
    omega

/-- `read_ipv6_addr`. -/
def readIpv6Addr (s : Text) : Option (Ipv6Addr × Text) :=
  if h : (readGroups 8 0 s).1.length = 8 then
    some (⟨(readGroups 8 0 s).1, h⟩, (readGroups 8 0 s).2.2)
  else if (readGroups 8 0 s).2.1 then none
  else do
    let rest ← readGivenChar ':' (readGroups 8 0 s).2.2
    let rest ← readGivenChar ':' rest
    -- `::` stands for at least one group
    let limit := 8 - ((readGroups 8 0 s).1.length + 1)
    pure (.ofParts (readGroups 8 0 s).1 (readGroups limit 0 rest).1 (by
      have hhead := length_readGroups_le 8 0 s
      have htail : (readGroups limit 0 rest).1.length ≤ limit := length_readGroups_le limit 0 rest
      omega), (readGroups limit 0 rest).2.2)

/-- `read_ip_addr`. -/
def readIpAddr (s : Text) : Option (IpAddr × Text) :=
  match readIpv4Addr s with
  | some (addr, rest) => some (.v4 addr, rest)
  | none => (readIpv6Addr s).map fun (addr, rest) => (.v6 addr, rest)

/-- `IpAddr::from_str`: nothing may be left. -/
def IpAddr.fromStr (s : Text) : Option IpAddr :=
  match readIpAddr s with
  | some (addr, []) => some addr
  | _ => none

/-! ## Texts of addresses -/

/-- Four decimal numbers with dots between them. -/
def Ipv4Addr.toText (addr : Ipv4Addr) : Text :=
  decimal addr.a.toNat ++ '.' :: (decimal addr.b.toNat ++ '.' ::
    (decimal addr.c.toNat ++ '.' :: decimal addr.d.toNat))

/-- Groups in hexadecimal, with colons before all of them but the one with number 0. -/
def groupsText : Nat → List UInt16 → Text
  | _, [] => []
  | 0, group :: groups => Nat.toDigits 16 group.toNat ++ groupsText 1 groups
  | index + 1, group :: groups =>
    ':' :: (Nat.toDigits 16 group.toNat ++ groupsText (index + 2) groups)

/-- All eight groups, none of them left out. -/
def Ipv6Addr.toText (addr : Ipv6Addr) : Text := groupsText 0 addr.segments

/-- A text of the address. -/
def IpAddr.toText : IpAddr → Text
  | .v4 addr => addr.toText
  | .v6 addr => addr.toText

/-! ### Reading a number -/

variable {radix : Nat}

/-- The text does not go on with a digit. -/
def NoDigit (radix : Nat) (rest : Text) : Prop := ∀ c ∈ rest.head?, toDigit radix c = none

theorem noDigit_cons {c : Char} (h : toDigit radix c = none) (rest : Text) :
    NoDigit radix (c :: rest) := by
  intro c' hc'
  cases hc'
  exact h

theorem leadingDigits_append {digits rest : Text}
    (hdigits : ∀ c ∈ digits, (toDigit radix c).isSome) (hrest : NoDigit radix rest) :
    leadingDigits radix (digits ++ rest) = digits := by
  rw [leadingDigits, List.takeWhile_append_of_pos hdigits]
  cases rest with
  | nil => rw [List.takeWhile_nil, List.append_nil]
  | cons c rest =>
    have hc : (toDigit radix c).isSome = false := by
      rw [hrest c rfl]
      rfl
    rw [List.takeWhile_cons, hc]
    exact List.append_nil digits

theorem readNumber_append {bound maxDigits : Nat} {allowZeroPrefix : Bool} {digits rest : Text}
    (hdigits : ∀ c ∈ digits, (toDigit radix c).isSome) (hrest : NoDigit radix rest)
    (hne : digits ≠ []) (hlength : digits.length ≤ maxDigits) (hbound : valueIn radix digits ≤ bound)
    (hzero : allowZeroPrefix = true ∨ ¬ (digits.head? = some '0' ∧ 1 < digits.length)) :
    readNumber radix bound maxDigits allowZeroPrefix (digits ++ rest) =
      some (valueIn radix digits, rest) := by
  rw [readNumber, leadingDigits_append hdigits hrest, if_neg, if_neg, List.drop_left]
  · rintro ⟨hallowed, hhead, hlong⟩
    rcases hzero with hzero | hzero
    · rw [hzero] at hallowed
      cases hallowed
    · exact hzero ⟨hhead, hlong⟩
  · rintro (hnil | hlong | hlarge)
    · exact hne hnil
    · omega
    · omega

theorem toDigit_digitChar (hradix : radix ≤ 16) {d : Nat} (hd : d < radix) :
    toDigit radix (Nat.digitChar d) = some d := by
  rw [toDigit, hexValue_digitChar (Nat.lt_of_lt_of_le hd hradix), Option.filter_some, if_pos]
  exact decide_eq_true hd

/-- Printed digits stand for the number that was printed. -/
theorem toDigits_spec (hone : 1 < radix) (hradix : radix ≤ 16) (n : Nat) :
    (∀ c ∈ Nat.toDigits radix n, (toDigit radix c).isSome) ∧
      valueIn radix (Nat.toDigits radix n) = n := by
  induction n using Nat.strong_induction_on with
  | _ n ih =>
    rw [Nat.toDigits_eq_if hone]
    split
    · rename_i hlt
      have hdigit := toDigit_digitChar hradix hlt
      refine ⟨fun c hc => ?_, ?_⟩
      · rw [List.mem_singleton.mp hc, hdigit]
        rfl
      · simp [valueIn, hdigit]
    · rename_i hle
      have hdigit := toDigit_digitChar hradix (Nat.mod_lt n (by omega : radix > 0))
      obtain ⟨hdigits, hvalue⟩ := ih (n / radix) (Nat.div_lt_self (by omega) hone)
      refine ⟨fun c hc => ?_, ?_⟩
      · rcases List.mem_append.mp hc with hc | hc
        · exact hdigits c hc
        · rw [List.mem_singleton.mp hc, hdigit]
          rfl
      · rw [valueIn, List.foldl_append]
        show radix * valueIn radix _ + (toDigit radix (Nat.digitChar (n % radix))).getD 0 = n
        rw [hvalue, hdigit]
        exact Nat.div_add_mod n radix

/-- A number is printed without leading zeros. -/
theorem head?_toDigits_ne (hone : 1 < radix) (hradix : radix ≤ 16) {n : Nat} (hn : 0 < n) :
    (Nat.toDigits radix n).head? ≠ some '0' := by
  induction n using Nat.strong_induction_on with
  | _ n ih =>
    rw [Nat.toDigits_eq_if hone]
    split
    · rename_i hlt
      have hdigit : ∀ d < 16, Nat.digitChar d = '0' → d = 0 := by decide
      intro hzero
      have := hdigit n (by omega) (Option.some.inj hzero)
      omega
    · rename_i hle
      rw [List.head?_append_of_ne_nil _ Nat.toDigits_ne_nil]
      exact ih (n / radix) (Nat.div_lt_self hn hone) (Nat.div_pos (by omega) (by omega))

theorem readOctet_decimal (octet : UInt8) {rest : Text} (hrest : NoDigit 10 rest) :
    readOctet (decimal octet.toNat ++ rest) = some (octet, rest) := by
  have hlt := octet.toNat_lt
  obtain ⟨hdigits, hvalue⟩ := toDigits_spec (by decide : 1 < 10) (by decide) octet.toNat
  have hlength : (Nat.toDigits 10 octet.toNat).length ≤ 3 :=
    (Nat.length_toDigits_le_iff (by decide) (by decide)).mpr (by omega)
  have hzero : ¬ ((Nat.toDigits 10 octet.toNat).head? = some '0' ∧
      1 < (Nat.toDigits 10 octet.toNat).length) := by
    rintro ⟨hhead, hlong⟩
    rcases Nat.eq_zero_or_pos octet.toNat with hnone | hpos
    · rw [hnone, Nat.toDigits_zero] at hlong
      exact Nat.lt_irrefl 1 hlong
    · exact head?_toDigits_ne (by decide) (by decide) hpos hhead
  have hbound : valueIn 10 (Nat.toDigits 10 octet.toNat) ≤ 255 := by
    rw [hvalue]
    omega
  rw [decimal, readOctet, readNumber_append hdigits hrest Nat.toDigits_ne_nil hlength hbound
    (Or.inr hzero), Option.map_some, hvalue, UInt8.ofNat_toNat]

theorem readGroup_toDigits (group : UInt16) {rest : Text} (hrest : NoDigit 16 rest) :
    readGroup (Nat.toDigits 16 group.toNat ++ rest) = some (group, rest) := by
  have hlt := group.toNat_lt
  obtain ⟨hdigits, hvalue⟩ := toDigits_spec (by decide : 1 < 16) (by decide) group.toNat
  have hlength : (Nat.toDigits 16 group.toNat).length ≤ 4 :=
    (Nat.length_toDigits_le_iff (by decide) (by decide)).mpr (by omega)
  have hbound : valueIn 16 (Nat.toDigits 16 group.toNat) ≤ 65535 := by
    rw [hvalue]
    omega
  rw [readGroup, readNumber_append hdigits hrest Nat.toDigits_ne_nil hlength hbound (Or.inl rfl),
    Option.map_some, hvalue, UInt16.ofNat_toNat]

/-! ### Reading an address -/

theorem readSeparator_cons {α : Type} (separator : Char) {index : Nat} (hindex : 0 < index)
    (inner : Text → Option (α × Text)) (rest : Text) :
    readSeparator separator index inner (separator :: rest) = inner rest := by
  rw [readSeparator, if_pos hindex, readGivenChar, if_pos rfl, Option.bind_some]

theorem readIpv4Addr_toText (addr : Ipv4Addr) : readIpv4Addr addr.toText = some (addr, []) := by
  have hdot : ∀ rest, NoDigit 10 ('.' :: rest) := noDigit_cons (by decide)
  have hlast : readOctet (decimal addr.d.toNat) = some (addr.d, []) := by
    have h : readOctet (decimal addr.d.toNat ++ []) = some (addr.d, []) :=
      readOctet_decimal addr.d fun c hc => nomatch hc
    rwa [List.append_nil] at h
  rw [readIpv4Addr, Ipv4Addr.toText, readOctet_decimal addr.a (hdot _)]
  simp only [Option.bind_eq_bind, Option.bind_some]
  rw [readSeparator_cons '.' (by decide), readOctet_decimal addr.b (hdot _)]
  simp only [Option.bind_some]
  rw [readSeparator_cons '.' (by decide), readOctet_decimal addr.c (hdot _)]
  simp only [Option.bind_some]
  rw [readSeparator_cons '.' (by decide), hlast]
  rfl

/-- Without a dot there is no IPv4 address. -/
theorem readIpv4Addr_of_notMem {s : Text} (h : '.' ∉ s) : readIpv4Addr s = none := by
  rw [readIpv4Addr]
  cases hoctet : readOctet s with
  | none => rfl
  | some read =>
    obtain ⟨n, hn, hread⟩ := Option.map_eq_some_iff.mp hoctet
    have hrest : read.2 = s.drop (leadingDigits 10 s).length := by
      rw [readNumber] at hn
      split_ifs at hn
      cases hn
      rw [← hread]
    have hdot : readGivenChar '.' read.2 = none := by
      cases hcases : read.2 with
      | nil => rfl
      | cons c rest =>
        refine if_neg ?_
        rintro rfl
        exact h (List.mem_of_mem_drop (hrest ▸ hcases ▸ List.mem_cons_self))
    simp only [Option.bind_eq_bind, Option.bind_some]
    rw [readSeparator, if_pos (by decide), hdot]
    rfl

theorem readSeparator_of_notMem {s : Text} (h : '.' ∉ s) (index : Nat) :
    readSeparator ':' index readIpv4Addr s = none := by
  rw [readSeparator]
  split
  · cases s with
    | nil => rfl
    | cons c rest =>
      rw [readGivenChar]
      split
      · exact readIpv4Addr_of_notMem fun hmem => h (List.mem_cons_of_mem _ hmem)
      · rfl
  · exact readIpv4Addr_of_notMem h

theorem dot_notMem_toDigits (n : Nat) : '.' ∉ Nat.toDigits 16 n := by
  intro h
  have hdigit := (toDigits_spec (by decide : 1 < 16) (by decide) n).1 '.' h
  revert hdigit
  decide

theorem dot_notMem_groupsText (index : Nat) (groups : List UInt16) :
    '.' ∉ groupsText index groups := by
  induction groups generalizing index with
  | nil =>
    rw [groupsText]
    exact List.not_mem_nil
  | cons group groups ih =>
    cases index with
    | zero =>
      rw [groupsText, List.mem_append, not_or]
      exact ⟨dot_notMem_toDigits _, ih 1⟩
    | succ index =>
      rw [groupsText, List.mem_cons, List.mem_append, not_or, not_or]
      exact ⟨by decide, dot_notMem_toDigits _, ih (index + 2)⟩

theorem noDigit_groupsText (index : Nat) (groups : List UInt16) :
    NoDigit 16 (groupsText (index + 1) groups) := by
  cases groups with
  | nil =>
    intro c hc
    cases hc
  | cons group groups => exact noDigit_cons (by decide) _

theorem readGroups_groupsText (groups : List UInt16) (index : Nat) :
    readGroups groups.length index (groupsText index groups) = (groups, false, []) := by
  induction groups generalizing index with
  | nil =>
    rw [groupsText]
    rfl
  | cons group groups ih =>
    have hipv4 : (if 0 < groups.length then
        readSeparator ':' index readIpv4Addr (groupsText index (group :: groups)) else none) =
        none := by
      rw [readSeparator_of_notMem (dot_notMem_groupsText _ _), ite_self]
    have hgroup : readSeparator ':' index readGroup (groupsText index (group :: groups)) =
        some (group, groupsText (index + 1) groups) := by
      have hread := readGroup_toDigits group (noDigit_groupsText index groups)
      cases index with
      | zero => exact hread
      | succ index =>
        rw [groupsText, readSeparator_cons ':' (Nat.succ_pos index)]
        exact hread
    rw [List.length_cons, readGroups, hipv4]
    simp only [hgroup, ih]

/-- **Every address has a text that is read as this address.** -/
theorem fromStr_toText (addr : IpAddr) : IpAddr.fromStr addr.toText = some addr := by
  cases addr with
  | v4 addr => rw [IpAddr.fromStr, IpAddr.toText, readIpAddr, readIpv4Addr_toText]
  | v6 addr =>
    have hipv4 : readIpv4Addr addr.toText = none :=
      readIpv4Addr_of_notMem (dot_notMem_groupsText 0 addr.segments)
    have hgroups : readGroups 8 0 addr.toText = (addr.segments, false, []) := by
      rw [← addr.length_segments]
      exact readGroups_groupsText addr.segments 0
    have hipv6 : readIpv6Addr addr.toText = some (addr, []) := by
      have hlength : (readGroups 8 0 addr.toText).1.length = 8 := by
        rw [hgroups]
        exact addr.length_segments
      rw [readIpv6Addr, dif_pos hlength]
      simp only [hgroups]
    rw [IpAddr.fromStr, IpAddr.toText, readIpAddr, hipv4, hipv6]
    rfl

end InternetAddresses
