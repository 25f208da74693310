import HiddenLightning.Campaign

/-! # Packing and unpacking short channel ids

A short channel id is a `u64` of three fields: the block in its upper 24 bits, the
transaction's index in the next 24, the output's index in the lower 16.  `probe.rs` has its
own copies of the functions for them.  Unpacking is that of LDK; packing is too, but without
the checks: LDK's `scid_from_parts` refuses a part that does not fit its field, the copy
shifts and ors whatever it is given.

So a part that is too large spills into the field above, or off the end, and what is in a
field is the or of all that falls into it (`ScidParts.fields`).  As long as the parts fit,
packing and unpacking are inverse and keep the order (`scid_packing`).  Without the checks,
exactly the outputs that LDK refuses are given the id of another output
(`scid_distinct_iff`).
-/
namespace HiddenLightning

/-! ## The functions -/

/-- `MAX_SCID_BLOCK`. -/
def maxScidBlock : UInt64 := 0x00ffffff

/-- `MAX_SCID_TX_INDEX`. -/
def maxScidTxIndex : UInt64 := 0x00ffffff

/-- `MAX_SCID_VOUT_INDEX`. -/
def maxScidVoutIndex : UInt64 := 0xffff

/-- `block_from_scid`. -/
def blockFromScid (scid : UInt64) : UInt32 := (scid >>> 40).toUInt32

/-- `tx_index_from_scid`. -/
def txIndexFromScid (scid : UInt64) : UInt32 := ((scid >>> 16) &&& maxScidTxIndex).toUInt32

/-- `vout_from_scid`. -/
def voutFromScid (scid : UInt64) : UInt16 := (scid &&& 0xffff).toUInt16

/-- LDK's `ShortChannelIdError`. -/
inductive ShortChannelIdError where
  | blockOverflow
  | txIndexOverflow
  | voutIndexOverflow
deriving DecidableEq

/-- LDK's own `scid_from_parts` (`scid_utils.rs`), with its checks. -/
def checkedScidFromParts (block txIndex voutIndex : UInt64) :
    Except ShortChannelIdError UInt64 :=
  if block > maxScidBlock then .error .blockOverflow
  else if txIndex > maxScidTxIndex then .error .txIndexOverflow
  else if voutIndex > maxScidVoutIndex then .error .voutIndexOverflow
  else .ok ((block <<< 40) ||| (txIndex <<< 16) ||| voutIndex)

/-! ## The parts of an output -/

/-- What an id is made of, as any three numbers that a transaction record may have. -/
@[ext] structure ScidParts where
  block : UInt64
  txIndex : UInt64
  vout : UInt64
deriving DecidableEq

namespace ScidParts

/-- The id of an output. -/
def scid (p : ScidParts) : UInt64 := scidFromParts p.block p.txIndex p.vout

/-- The parts that are read from an id. -/
def ofScid (scid : UInt64) : ScidParts where
  block := (blockFromScid scid).toUInt64
  txIndex := (txIndexFromScid scid).toUInt64
  vout := (voutFromScid scid).toUInt64

/-- The parts of a transaction record. -/
def ofTransaction (tx : Transaction) : ScidParts :=
  ⟨tx.blockHeight, tx.blockIndex, tx.transactionIndex⟩

/-- Every part fits its field. -/
def InRange (p : ScidParts) : Prop :=
  p.block ≤ maxScidBlock ∧ p.txIndex ≤ maxScidTxIndex ∧ p.vout ≤ maxScidVoutIndex

instance (p : ScidParts) : Decidable p.InRange := inferInstanceAs (Decidable (_ ∧ _ ∧ _))

/-- By block, then by transaction, then by output. -/
def Before (p q : ScidParts) : Prop :=
  p.block < q.block ∨ p.block = q.block ∧
    (p.txIndex < q.txIndex ∨ p.txIndex = q.txIndex ∧ p.vout < q.vout)

/-- **What falls into each field**: the part of that field, and what spills over from the fields
below it. -/
def fields (p : ScidParts) : Nat × Nat × Nat :=
  ((p.block.toNat ||| p.txIndex.toNat / 2 ^ 24 ||| p.vout.toNat / 2 ^ 40) % 2 ^ 24,
    (p.txIndex.toNat ||| p.vout.toNat / 2 ^ 16) % 2 ^ 24,
    p.vout.toNat % 2 ^ 16)

theorem inRange_iff (p : ScidParts) :
    p.InRange ↔ p.block.toNat < 2 ^ 24 ∧ p.txIndex.toNat < 2 ^ 24 ∧ p.vout.toNat < 2 ^ 16 := by
  have hblock : maxScidBlock.toNat = 2 ^ 24 - 1 := by decide
  have htxIndex : maxScidTxIndex.toNat = 2 ^ 24 - 1 := by decide
  have hvout : maxScidVoutIndex.toNat = 2 ^ 16 - 1 := by decide
  unfold InRange
  rw [UInt64.le_iff_toNat_le, UInt64.le_iff_toNat_le, UInt64.le_iff_toNat_le, hblock, htxIndex,
    hvout]
  omega

/-- LDK accepts exactly the outputs whose parts fit. -/
theorem isOk_checked_iff (p : ScidParts) :
    (checkedScidFromParts p.block p.txIndex p.vout).isOk ↔ p.InRange := by
  unfold checkedScidFromParts InRange
  split_ifs with hblock htxIndex hvout
  · exact iff_of_false Bool.false_ne_true fun h => absurd h.1 (UInt64.not_le.mpr hblock)
  · exact iff_of_false Bool.false_ne_true fun h => absurd h.2.1 (UInt64.not_le.mpr htxIndex)
  · exact iff_of_false Bool.false_ne_true fun h => absurd h.2.2 (UInt64.not_le.mpr hvout)
  · exact iff_of_true rfl
      ⟨UInt64.not_lt.mp hblock, UInt64.not_lt.mp htxIndex, UInt64.not_lt.mp hvout⟩

end ScidParts

/-! ## Ids as numbers -/

theorem toNat_blockFromScid (scid : UInt64) :
    (blockFromScid scid).toNat = scid.toNat / 2 ^ 40 := by
  have hlt := scid.toNat_lt
  have hshift : (scid >>> 40).toNat = scid.toNat / 2 ^ 40 := by
    rw [UInt64.toNat_shiftRight, Nat.shiftRight_eq_div_pow]
    rfl
  rw [blockFromScid, UInt64.toNat_toUInt32, hshift]
  omega

theorem toNat_txIndexFromScid (scid : UInt64) :
    (txIndexFromScid scid).toNat = scid.toNat / 2 ^ 16 % 2 ^ 24 := by
  have hmask : ((scid >>> 16) &&& maxScidTxIndex).toNat = scid.toNat / 2 ^ 16 % 2 ^ 24 := by
    rw [UInt64.toNat_and, UInt64.toNat_shiftRight, Nat.shiftRight_eq_div_pow]
    exact Nat.and_two_pow_sub_one_eq_mod _ 24
  rw [txIndexFromScid, UInt64.toNat_toUInt32, hmask]
  omega

theorem toNat_voutFromScid (scid : UInt64) :
    (voutFromScid scid).toNat = scid.toNat % 2 ^ 16 := by
  have hmask : (scid &&& 0xffff).toNat = scid.toNat % 2 ^ 16 := by
    rw [UInt64.toNat_and]
    exact Nat.and_two_pow_sub_one_eq_mod _ 16
  rw [voutFromScid, UInt64.toNat_toUInt16, hmask]
  omega

theorem toNat_scidFromParts (block txIndex voutIndex : UInt64) :
    (scidFromParts block txIndex voutIndex).toNat =
      block.toNat * 2 ^ 40 % 2 ^ 64 ||| txIndex.toNat * 2 ^ 16 % 2 ^ 64 ||| voutIndex.toNat := by
  rw [scidFromParts, UInt64.toNat_or, UInt64.toNat_or, UInt64.toNat_shiftLeft,
    UInt64.toNat_shiftLeft, Nat.shiftLeft_eq, Nat.shiftLeft_eq]
  rfl

namespace ScidParts

/-- An id is known by its three fields. -/
theorem toNat_eq_fields (p : ScidParts) :
    p.scid.toNat = p.fields.1 * 2 ^ 40 + p.fields.2.1 * 2 ^ 16 + p.fields.2.2 := by
  have hvout := p.vout.toNat_lt
  -- the id is cut at the two borders, and each cut goes through the or
  have hlow : p.scid.toNat % 2 ^ 16 = p.fields.2.2 := by
    show _ = p.vout.toNat % 2 ^ 16
    rw [scid, toNat_scidFromParts, Nat.or_mod_two_pow, Nat.or_mod_two_pow,
      show p.block.toNat * 2 ^ 40 % 2 ^ 64 % 2 ^ 16 = 0 by omega,
      show p.txIndex.toNat * 2 ^ 16 % 2 ^ 64 % 2 ^ 16 = 0 by omega, Nat.zero_or, Nat.zero_or]
  have hmiddle : p.scid.toNat / 2 ^ 16 % 2 ^ 24 = p.fields.2.1 := by
    show _ = (p.txIndex.toNat ||| p.vout.toNat / 2 ^ 16) % 2 ^ 24
    rw [scid, toNat_scidFromParts, Nat.or_div_two_pow, Nat.or_div_two_pow, Nat.or_mod_two_pow,
      Nat.or_mod_two_pow, Nat.or_mod_two_pow,
      show p.block.toNat * 2 ^ 40 % 2 ^ 64 / 2 ^ 16 % 2 ^ 24 = 0 by omega,
      show p.txIndex.toNat * 2 ^ 16 % 2 ^ 64 / 2 ^ 16 % 2 ^ 24 = p.txIndex.toNat % 2 ^ 24 by omega,
      Nat.zero_or]
  have hhigh : p.scid.toNat / 2 ^ 40 = p.fields.1 := by
    show _ = (p.block.toNat ||| p.txIndex.toNat / 2 ^ 24 ||| p.vout.toNat / 2 ^ 40) % 2 ^ 24
    rw [scid, toNat_scidFromParts, Nat.or_div_two_pow, Nat.or_div_two_pow, Nat.or_mod_two_pow,
      Nat.or_mod_two_pow,
      show p.block.toNat * 2 ^ 40 % 2 ^ 64 / 2 ^ 40 = p.block.toNat % 2 ^ 24 by omega,
      show p.txIndex.toNat * 2 ^ 16 % 2 ^ 64 / 2 ^ 40 = p.txIndex.toNat / 2 ^ 24 % 2 ^ 24 by omega,
      show p.vout.toNat / 2 ^ 40 % 2 ^ 24 = p.vout.toNat / 2 ^ 40 by omega]
  omega

/-- The fields are as wide as they are meant to be. -/
theorem fields_lt (p : ScidParts) :
    p.fields.1 < 2 ^ 24 ∧ p.fields.2.1 < 2 ^ 24 ∧ p.fields.2.2 < 2 ^ 16 :=
  ⟨Nat.mod_lt _ (by decide), Nat.mod_lt _ (by decide), Nat.mod_lt _ (by decide)⟩

/-- **Two outputs share an id exactly if their fields are the same.** -/
theorem scid_eq_iff (p q : ScidParts) : p.scid = q.scid ↔ p.fields = q.fields := by
  have hp := p.fields_lt
  have hq := q.fields_lt
  have hpId := p.toNat_eq_fields
  have hqId := q.toNat_eq_fields
  constructor
  · intro h
    rw [h] at hpId
    have hblock : p.fields.1 = q.fields.1 := by omega
    have htxIndex : p.fields.2.1 = q.fields.2.1 := by omega
    have hvout : p.fields.2.2 = q.fields.2.2 := by omega
    exact Prod.ext hblock (Prod.ext htxIndex hvout)
  · intro h
    apply UInt64.toNat_inj.mp
    rw [hpId, hqId, h]

/-- Nothing spills over if every part fits. -/
theorem InRange.fields_eq {p : ScidParts} (h : p.InRange) :
    p.fields = (p.block.toNat, p.txIndex.toNat, p.vout.toNat) := by
  obtain ⟨hblock, htxIndex, hvout⟩ := p.inRange_iff.mp h
  unfold fields
  rw [show p.txIndex.toNat / 2 ^ 24 = 0 by omega, show p.vout.toNat / 2 ^ 40 = 0 by omega,
    show p.vout.toNat / 2 ^ 16 = 0 by omega, Nat.or_zero, Nat.or_zero, Nat.or_zero,
    Nat.mod_eq_of_lt hblock, Nat.mod_eq_of_lt htxIndex, Nat.mod_eq_of_lt hvout]

/-- The id of parts that fit, as a number. -/
theorem InRange.toNat_scid {p : ScidParts} (h : p.InRange) :
    p.scid.toNat = p.block.toNat * 2 ^ 40 + p.txIndex.toNat * 2 ^ 16 + p.vout.toNat := by
  rw [p.toNat_eq_fields, h.fields_eq]

theorem InRange.eq_of_scid_eq {p q : ScidParts} (hp : p.InRange) (hq : q.InRange)
    (h : p.scid = q.scid) : p = q := by
  rw [scid_eq_iff, hp.fields_eq, hq.fields_eq, Prod.mk.injEq, Prod.mk.injEq] at h
  exact ScidParts.ext (UInt64.toNat_inj.mp h.1) (UInt64.toNat_inj.mp h.2.1)
    (UInt64.toNat_inj.mp h.2.2)

/-! ## Packing and unpacking -/

theorem toNat_ofScid (scid : UInt64) :
    (ofScid scid).block.toNat = scid.toNat / 2 ^ 40 ∧
      (ofScid scid).txIndex.toNat = scid.toNat / 2 ^ 16 % 2 ^ 24 ∧
      (ofScid scid).vout.toNat = scid.toNat % 2 ^ 16 := by
  refine ⟨?_, ?_, ?_⟩
  · show (blockFromScid scid).toUInt64.toNat = _
    rw [UInt32.toNat_toUInt64, toNat_blockFromScid]
  · show (txIndexFromScid scid).toUInt64.toNat = _
    rw [UInt32.toNat_toUInt64, toNat_txIndexFromScid]
  · show (voutFromScid scid).toUInt64.toNat = _
    rw [UInt16.toNat_toUInt64, toNat_voutFromScid]

/-- What is read from an id fits. -/
theorem inRange_ofScid (scid : UInt64) : (ofScid scid).InRange := by
  obtain ⟨hblock, htxIndex, hvout⟩ := toNat_ofScid scid
  have hlt := scid.toNat_lt
  rw [inRange_iff, hblock, htxIndex, hvout]
  omega

/-- **Packing undoes unpacking**, for every id. -/
theorem scid_ofScid (scid : UInt64) : (ofScid scid).scid = scid := by
  obtain ⟨hblock, htxIndex, hvout⟩ := toNat_ofScid scid
  apply UInt64.toNat_inj.mp
  rw [(inRange_ofScid scid).toNat_scid, hblock, htxIndex, hvout]
  omega

/-- **Unpacking undoes packing**, for parts that fit. -/
theorem InRange.ofScid_scid {p : ScidParts} (h : p.InRange) : ofScid p.scid = p :=
  (inRange_ofScid _).eq_of_scid_eq h (scid_ofScid _)

/-- Ids are in the order of their parts. -/
theorem InRange.scid_lt_iff {p q : ScidParts} (hp : p.InRange) (hq : q.InRange) :
    p.scid < q.scid ↔ p.Before q := by
  obtain ⟨-, hpTx, hpVout⟩ := p.inRange_iff.mp hp
  obtain ⟨-, hqTx, hqVout⟩ := q.inRange_iff.mp hq
  unfold Before
  rw [UInt64.lt_iff_toNat_lt, hp.toNat_scid, hq.toNat_scid, UInt64.lt_iff_toNat_lt,
    UInt64.lt_iff_toNat_lt, UInt64.lt_iff_toNat_lt, ← UInt64.toNat_inj, ← UInt64.toNat_inj]
  omega

end ScidParts

/-- **Packing and unpacking are inverse and keep the order.**  For all parts that fit their
fields and for every id. -/
theorem scid_packing :
    (∀ p : ScidParts, p.InRange → (blockFromScid p.scid).toUInt64 = p.block ∧
      (txIndexFromScid p.scid).toUInt64 = p.txIndex ∧
      (voutFromScid p.scid).toUInt64 = p.vout) ∧
    (∀ scid, scidFromParts (blockFromScid scid).toUInt64 (txIndexFromScid scid).toUInt64
      (voutFromScid scid).toUInt64 = scid) ∧
    (∀ p q : ScidParts, p.InRange → q.InRange → (p.scid < q.scid ↔ p.Before q)) := by
  refine ⟨fun p hp => ?_, ScidParts.scid_ofScid, fun p q hp hq => hp.scid_lt_iff hq⟩
  have hparts := hp.ofScid_scid
  exact ⟨congrArg ScidParts.block hparts, congrArg ScidParts.txIndex hparts,
    congrArg ScidParts.vout hparts⟩

/-- The second output of the fourth transaction of block 700000. -/
theorem scid_packing_sample :
    blockFromScid (ScidParts.scid ⟨700000, 3, 1⟩) = 700000 ∧
    (ScidParts.scid ⟨700000, 3, 1⟩ < ScidParts.scid ⟨700000, 4, 0⟩ ↔
      ScidParts.Before ⟨700000, 3, 1⟩ ⟨700000, 4, 0⟩) := by
  have hfirst : ScidParts.InRange ⟨700000, 3, 1⟩ := by decide
  have hsecond : ScidParts.InRange ⟨700000, 4, 0⟩ := by decide
  refine ⟨?_, scid_packing.2.2 _ _ hfirst hsecond⟩
  exact UInt32.toUInt64_inj.mp (scid_packing.1 _ hfirst).1

/-! ## Without the checks -/

/-- LDK's `scid_from_parts` accepts the output. -/
def ScidParts.Accepted (p : ScidParts) : Prop :=
  (checkedScidFromParts p.block p.txIndex p.vout).isOk

instance (p : ScidParts) : Decidable p.Accepted := inferInstanceAs (Decidable (_ = true))

/-- The output that is read from an id is accepted, and has that id. -/
theorem ScidParts.accepted_ofScid (scid : UInt64) :
    (ScidParts.ofScid scid).Accepted ∧ (ScidParts.ofScid scid).scid = scid :=
  ⟨(isOk_checked_iff _).mpr (inRange_ofScid scid), scid_ofScid scid⟩

/-- What LDK accepts has an id of its own among what it accepts. -/
theorem ScidParts.Accepted.eq_of_scid_eq {p q : ScidParts} (hp : p.Accepted) (hq : q.Accepted)
    (h : p.scid = q.scid) : p = q :=
  (p.isOk_checked_iff.mp hp).eq_of_scid_eq (q.isOk_checked_iff.mp hq) h

/-- **Outputs have ids of their own exactly if LDK accepts them all.**  Those that it accepts have
different ids, and each that it refuses is given the id of an output that it accepts, whether that
one is in the collection or not. -/
theorem scid_distinct_iff (outputs : Set ScidParts) :
    (∀ p ∈ outputs, ∀ q : ScidParts, q ∈ outputs ∨ q.Accepted → p.scid = q.scid → p = q) ↔
      ∀ p ∈ outputs, p.Accepted := by
  constructor
  · intro hown p hp
    -- the output that is read from its id has the same one
    obtain ⟨haccepted, hscid⟩ := ScidParts.accepted_ofScid p.scid
    rw [hown p hp _ (.inr haccepted) hscid.symm]
    exact haccepted
  · intro hall p hp q hq hscid
    have hq' : q.Accepted := hq.elim (hall q) id
    exact (hall p hp).eq_of_scid_eq hq' hscid

/-- Two outputs of one block that LDK accepts, and one more that it refuses. -/
theorem scid_distinct_sample :
    (∀ p ∈ ({⟨700000, 3, 1⟩, ⟨700000, 4, 0⟩} : Set ScidParts), ∀ q : ScidParts,
      q ∈ ({⟨700000, 3, 1⟩, ⟨700000, 4, 0⟩} : Set ScidParts) ∨ q.Accepted →
        p.scid = q.scid → p = q) ∧
    ¬ ∀ p ∈ ({⟨700000, 3, 1⟩, ⟨700000, 2, 65536⟩} : Set ScidParts), ∀ q : ScidParts,
      q ∈ ({⟨700000, 3, 1⟩, ⟨700000, 2, 65536⟩} : Set ScidParts) ∨ q.Accepted →
        p.scid = q.scid → p = q := by
  constructor
  · refine (scid_distinct_iff _).mpr ?_
    rintro p (rfl | rfl) <;> decide
  · intro hown
    have hrefused := (scid_distinct_iff _).mp hown ⟨700000, 2, 65536⟩ (by simp)
    exact absurd hrefused (by decide)

/-- Output 65536 of a transaction has the id of output 0 of the next one. -/
theorem scid_shared : ¬ ∀ p q : ScidParts, p.scid = q.scid → p = q := by
  intro h
  exact absurd (h ⟨700000, 2, 65536⟩ ⟨700000, 3, 0⟩ (by decide)) (by decide)

end HiddenLightning
