import HiddenLightning.Numerals
import HiddenLightning.ChannelMonitor

/-! # The persister's file names

A channel's full monitor is stored as `<txid>_<index>`, an update as
`<txid>_<index>_<update id>`, and either is first written under its name with
`.tmp` appended (`persist_new_channel`, `update_persisted_channel` and
`write_to_file` of `disk.rs`).  A txid is printed as 64 hexadecimal digits, in
reverse byte order as all of Bitcoin prints it.

The readers take a name apart again (`checkFilename`, `parseMonitorFilename`,
`parseUpdateFilename`): `FilesystemPersister::read_channelmonitors` cuts it at
fixed positions, `YourPersister::read_channelmonitor_updates` splits it at every
`_` and indexes the parts.  On the names the persister writes both give back the
outpoint, so no two outpoints and no two updates of one outpoint share a file,
and no name is mistaken for a temporary one.
-/
namespace HiddenLightning
open Numerals

/-! ## Transaction ids -/

/-- `Txid::to_hex`. -/
def Txid.toHex (txid : Txid) : Text := hexOfBytes txid.bytes.reverse

/-- `Txid::from_hex`: exactly 64 digits, in either case. -/
def Txid.fromHex (s : Text) : Option Txid :=
  (bytesOfHex s).bind fun bs =>
    if h : bs.length = 32 then some ⟨bs.reverse, by rw [List.length_reverse, h]⟩ else none

@[simp] theorem Txid.fromHex_toHex (txid : Txid) : Txid.fromHex txid.toHex = some txid := by
  have hlen : txid.bytes.reverse.length = 32 := by rw [List.length_reverse, txid.length_bytes]
  rw [Txid.fromHex, Txid.toHex, bytesOfHex_hexOfBytes, Option.bind_some, dif_pos hlen]
  cases txid
  simp

@[simp] theorem Txid.length_toHex (txid : Txid) : txid.toHex.length = 64 := by
  rw [Txid.toHex, length_hexOfBytes, List.length_reverse, txid.length_bytes]

/-- Nothing but 64 digits is a txid. -/
theorem Txid.length_of_fromHex {s : Text} {txid : Txid} (h : Txid.fromHex s = some txid) :
    s.length = 64 := by
  obtain ⟨bs, hbs, h⟩ := Option.bind_eq_some_iff.mp h
  have hprinted := congrArg List.length (hexOfBytes_of_bytesOfHex hbs)
  rw [length_hexOfBytes, List.length_map] at hprinted
  split at h
  · omega
  · cases h

theorem Txid.isAlphanum_toHex {txid : Txid} {c : Char} (h : c ∈ txid.toHex) : c.isAlphanum :=
  isAlphanum_of_mem_hexOfBytes h

theorem underscore_notMem_toHex (txid : Txid) : '_' ∉ txid.toHex := by
  intro h
  have := Txid.isAlphanum_toHex h
  revert this
  decide

/-! ## Writing names -/

/-- The file of a channel's full monitor. -/
def monitorFilename (id : OutPoint) : Text := id.txid.toHex ++ '_' :: decimal id.index.toNat

/-- The file of an update of a channel. -/
def updateFilename (id : OutPoint) (updateId : UInt64) : Text :=
  id.txid.toHex ++ '_' :: (decimal id.index.toNat ++ '_' :: decimal updateId.toNat)

/-- The suffix of a file still being written. -/
def tmpSuffix : Text := ['.', 't', 'm', 'p']

/-- `format!("{}.tmp", filename)`. -/
def tmpFilename (filename : Text) : Text := filename ++ tmpSuffix

/-! ## Reading names -/

/-- Why a reader gives up. -/
inductive ReadError where
  | invalidFileName
  | invalidTxid (part : Text)
  | invalidIndex (part : Text)
  | unreadable
  | undecodable
  | wrongFile

/-- A reader returns `Err`, which its caller unwraps, or panics by itself. -/
inductive Fault where
  | panicked
  | failed (e : ReadError)

/-- The checks both readers start with: a name that is not UTF-8 (`none`), not
ASCII or shorter than 65 bytes is an error; one that ends in `.tmp` is skipped
(`none`). -/
def checkFilename (filename : Option Text) : Except Fault (Option Text) :=
  match filename with
  | none => .error (.failed .invalidFileName)
  | some name =>
    if name.all (fun c => c.toNat < 128) ∧ 65 ≤ name.length then
      if tmpSuffix.isSuffixOf name then .ok none else .ok (some name)
    else .error (.failed .invalidFileName)

/-- The outpoint in a monitor's file name: `split_at(64)` and `split_at(65)`. -/
def parseMonitorFilename (name : Text) : Except Fault OutPoint :=
  match Txid.fromHex (name.take 64) with
  | none => .error (.failed (.invalidTxid (name.take 64)))
  | some txid =>
    match parseUnsigned 65535 (name.drop 65) with
    | none => .error (.failed (.invalidIndex (name.drop 65)))
    | some index => .ok ⟨txid, UInt16.ofNat index⟩

/-- The outpoint in an update's file name: parts 0 and 1 of the split at `_`.
Part 1 is indexed without a check. -/
def parseUpdateFilename (name : Text) : Except Fault OutPoint :=
  match name.splitOn '_' with
  | [] => .error .panicked
  | part₀ :: parts =>
    match Txid.fromHex part₀ with
    | none => .error (.failed (.invalidTxid part₀))
    | some txid =>
      match parts with
      | [] => .error .panicked
      | part₁ :: _ =>
        match parseUnsigned 65535 part₁ with
        | none => .error (.failed (.invalidIndex part₁))
        | some index => .ok ⟨txid, UInt16.ofNat index⟩

/-! ## Reading back what was written -/

theorem parseMonitorFilename_monitorFilename (id : OutPoint) :
    parseMonitorFilename (monitorFilename id) = .ok id := by
  have htake : (monitorFilename id).take 64 = id.txid.toHex := by
    rw [monitorFilename, List.take_append_of_le_length (by simp)]
    exact List.take_of_length_le (by simp)
  have hdrop : (monitorFilename id).drop 65 = decimal id.index.toNat := by
    rw [monitorFilename, List.drop_append, List.drop_of_length_le (by simp), Txid.length_toHex]
    rfl
  unfold parseMonitorFilename
  rw [htake, hdrop, Txid.fromHex_toHex]
  simp only [parseUnsigned_uint16, UInt16.ofNat_toNat]

/-- The parts of an update's file name. -/
theorem splitOn_updateFilename (id : OutPoint) (updateId : UInt64) :
    (updateFilename id updateId).splitOn '_' =
      [id.txid.toHex, decimal id.index.toNat, decimal updateId.toNat] := by
  rw [updateFilename, List.splitOn_append_cons_self_of_not_mem (underscore_notMem_toHex _),
    List.splitOn_append_cons_self_of_not_mem (notMem_decimal (by decide)),
    List.splitOn_eq_singleton (notMem_decimal (by decide))]

theorem parseUpdateFilename_updateFilename (id : OutPoint) (updateId : UInt64) :
    parseUpdateFilename (updateFilename id updateId) = .ok id := by
  unfold parseUpdateFilename
  rw [splitOn_updateFilename]
  simp only [Txid.fromHex_toHex, parseUnsigned_uint16, UInt16.ofNat_toNat]

theorem monitorFilename_injective : Function.Injective monitorFilename := by
  intro a b h
  have ha := parseMonitorFilename_monitorFilename a
  rw [h, parseMonitorFilename_monitorFilename] at ha
  cases ha
  rfl

/-- An update's file determines both the outpoint and the number. -/
theorem updateFilename_inj {a b : OutPoint} {i j : UInt64}
    (h : updateFilename a i = updateFilename b j) : a = b ∧ i = j := by
  have ha := parseUpdateFilename_updateFilename a i
  rw [h, parseUpdateFilename_updateFilename] at ha
  cases ha
  refine ⟨rfl, ?_⟩
  rw [updateFilename, updateFilename, List.append_cancel_left_eq, List.cons.injEq,
    List.append_cancel_left_eq, List.cons.injEq] at h
  exact UInt64.toNat_inj.mp (decimal_injective h.2.2)

/-! ## Reading any name -/

/-- A name is skipped, refused, or accepted and then 65 characters long at least. -/
theorem checkFilename_cases (name : Text) :
    checkFilename (some name) = .ok none ∨
      checkFilename (some name) = .error (.failed .invalidFileName) ∨
      checkFilename (some name) = .ok (some name) ∧ 65 ≤ name.length := by
  simp only [checkFilename]
  split_ifs with hchecks htmp
  · exact Or.inl rfl
  · exact Or.inr (Or.inr ⟨rfl, hchecks.2⟩)
  · exact Or.inr (Or.inl rfl)

/-- Without a `_` the first part is the whole name, which is too long for a txid. -/
theorem parseUpdateFilename_of_notMem {name : Text} (hlong : 65 ≤ name.length)
    (h : '_' ∉ name) : parseUpdateFilename name = .error (.failed (.invalidTxid name)) := by
  have htxid : Txid.fromHex name = none := by
    cases hname : Txid.fromHex name with
    | none => rfl
    | some txid =>
      have := Txid.length_of_fromHex hname
      omega
  unfold parseUpdateFilename
  rw [List.splitOn_eq_singleton h]
  dsimp only
  rw [htxid]

/-- **Part 1 is there whenever it is read.** -/
theorem parseUpdateFilename_ne_panicked {name : Text} (hlong : 65 ≤ name.length) :
    parseUpdateFilename name ≠ .error .panicked := by
  intro hpanic
  by_cases hmem : '_' ∈ name
  · obtain ⟨front, rest, rfl, hfront⟩ := List.eq_append_cons_of_mem hmem
    obtain ⟨part, parts, hparts⟩ := List.exists_cons_of_ne_nil (List.splitOn_ne_nil '_' rest)
    unfold parseUpdateFilename at hpanic
    rw [List.splitOn_append_cons_self_of_not_mem hfront, hparts] at hpanic
    dsimp only at hpanic
    split at hpanic
    · cases hpanic
    · split at hpanic
      · cases hpanic
      · cases hpanic
  · rw [parseUpdateFilename_of_notMem hlong hmem] at hpanic
    cases hpanic

/-! ## Names are complete or temporary, never both -/

/-- A name that both readers pass over. -/
def Skipped (name : Text) : Prop := checkFilename (some name) = .ok none

theorem ascii_of_isAlphanum {c : Char} (h : c.isAlphanum) : c.toNat < 128 := by
  simp only [Char.isAlphanum, Char.isAlpha, Char.isUpper, Char.isLower, Char.isDigit,
    Bool.or_eq_true, Bool.and_eq_true, decide_eq_true_eq, UInt32.le_iff_toNat_le] at h
  have hz : c.val.toNat ≤ 'z'.val.toNat := by
    rcases h with (h | h) | h
    · exact Nat.le_trans h.2 (by decide)
    · exact h.2
    · exact Nat.le_trans h.2 (by decide)
  exact Nat.lt_of_le_of_lt hz (by decide)

theorem ascii_of_isDigit {c : Char} (h : c.isDigit) : c.toNat < 128 :=
  ascii_of_isAlphanum (by rw [Char.isAlphanum, h, Bool.or_true])

/-- The shape shared by every name the persister writes: a txid, an underscore,
and characters ending in a digit. -/
structure Wellformed (name : Text) : Prop where
  ascii : ∀ c ∈ name, c.toNat < 128
  long : 65 ≤ name.length
  digit : ∃ front n, name = front ++ decimal n

theorem wellformed_monitorFilename (id : OutPoint) : Wellformed (monitorFilename id) where
  ascii c hc := by
    rw [monitorFilename, List.mem_append, List.mem_cons] at hc
    rcases hc with hc | rfl | hc
    · exact ascii_of_isAlphanum (Txid.isAlphanum_toHex hc)
    · decide
    · exact ascii_of_isDigit (isDigit_of_mem_decimal hc)
  long := by simp [monitorFilename]; omega
  digit := ⟨id.txid.toHex ++ ['_'], id.index.toNat, by simp [monitorFilename]⟩

theorem wellformed_updateFilename (id : OutPoint) (updateId : UInt64) :
    Wellformed (updateFilename id updateId) where
  ascii c hc := by
    rw [updateFilename, List.mem_append, List.mem_cons, List.mem_append, List.mem_cons] at hc
    rcases hc with hc | rfl | hc | rfl | hc
    · exact ascii_of_isAlphanum (Txid.isAlphanum_toHex hc)
    · decide
    · exact ascii_of_isDigit (isDigit_of_mem_decimal hc)
    · decide
    · exact ascii_of_isDigit (isDigit_of_mem_decimal hc)
  long := by simp [updateFilename]; omega
  digit := ⟨id.txid.toHex ++ '_' :: (decimal id.index.toNat ++ ['_']), updateId.toNat,
    by simp [updateFilename]⟩

/-- A complete name is not a temporary one. -/
theorem Wellformed.not_tmp {name : Text} (h : Wellformed name) : ¬ tmpSuffix <:+ name := by
  rintro ⟨front, hfront⟩
  obtain ⟨front', n, rfl⟩ := h.digit
  have hlast : (decimal n).getLast? = some 'p' := by
    have := congrArg List.getLast? hfront
    rw [List.getLast?_append_of_ne_nil _ (decimal_ne_nil n)] at this
    simpa [tmpSuffix] using this.symm
  exact notMem_decimal (by decide) (List.mem_of_getLast? hlast)

theorem Wellformed.ne_tmpFilename {name other : Text} (h : Wellformed name) :
    tmpFilename other ≠ name :=
  fun he => h.not_tmp ⟨other, he⟩

/-- **Both readers accept a complete name**, -/
theorem Wellformed.checkFilename_eq {name : Text} (h : Wellformed name) :
    checkFilename (some name) = .ok (some name) := by
  have hall : name.all (fun c => c.toNat < 128) = true :=
    List.all_eq_true.mpr fun c hc => decide_eq_true (h.ascii c hc)
  simp only [checkFilename]
  rw [if_pos ⟨hall, h.long⟩, if_neg]
  rw [List.isSuffixOf_iff_suffix]
  exact h.not_tmp

/-- **and skip its temporary file.** -/
theorem Wellformed.skipped_tmpFilename {name : Text} (h : Wellformed name) :
    Skipped (tmpFilename name) := by
  have hall : (tmpFilename name).all (fun c => c.toNat < 128) = true := by
    refine List.all_eq_true.mpr fun c hc => decide_eq_true ?_
    rcases List.mem_append.mp hc with hc | hc
    · exact h.ascii c hc
    · simp only [tmpSuffix, List.mem_cons, List.not_mem_nil, or_false] at hc
      rcases hc with rfl | rfl | rfl | rfl <;> decide
  have hlong : 65 ≤ (tmpFilename name).length := by
    rw [tmpFilename, List.length_append]
    exact Nat.le_add_right_of_le h.long
  simp only [Skipped, checkFilename]
  rw [if_pos ⟨hall, hlong⟩, if_pos]
  exact List.isSuffixOf_iff_suffix.mpr ⟨name, rfl⟩

theorem Wellformed.not_skipped {name : Text} (h : Wellformed name) : ¬ Skipped name := by
  intro hs
  rw [Skipped, h.checkFilename_eq] at hs
  cases hs

end HiddenLightning
