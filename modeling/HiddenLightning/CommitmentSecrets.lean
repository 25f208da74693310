import Mathlib.Data.Fin.Tuple.Basic
import HiddenLightning.SecretTrees

/-! # The revocation secrets of a counterparty

With every new state of a channel the counterparty gives up the secret of the state before, under
an index that counts down from `2 ^ 48 - 1`.  A secret is kept in the place that the lowest bit set
in its index tells, over whatever was there, so that 49 places hold what is needed to get back every
secret there ever was. -/
namespace HiddenLightning.CommitmentSecrets
open SecretTrees

/-- A revocation secret. -/
abbrev Secret := Vector UInt8 32

variable (sha256 : Secret → Secret)

/-- The secret with the bit at `bitpos` turned over, and hashed. -/
def flipAndHash (bitpos : Nat) (res : Secret) : Secret :=
  sha256 (res.mapIdx fun k byte =>
    if k = bitpos / 8 then byte ^^^ (1 <<< UInt8.ofNat (bitpos % 8)) else byte)

/-- How the counterparty makes its secrets. -/
def buildCommitmentSecret (commitmentSeed : Secret) (idx : Nat) : Secret :=
  derive (flipAndHash sha256) 48 idx commitmentSeed

/-- `CounterpartyCommitmentSecrets`: in each of 49 places a secret with its index. -/
structure CounterpartyCommitmentSecrets where
  oldSecrets : Fin 49 → Secret × Nat

namespace CounterpartyCommitmentSecrets

/-- An index of `2 ^ 48` stands for an empty place. -/
def new : CounterpartyCommitmentSecrets where
  oldSecrets _ := (Vector.replicate 32 0, 2 ^ 48)

/-- `place_secret`: the number of zero bits an index ends in. -/
def placeSecret (idx : Nat) : Fin 49 :=
  match Fin.find? (fun i : Fin 48 => idx.testBit i) with
  | some i => i.castSucc
  | none => Fin.last 48

/-- `get_min_seen_secret`. -/
def getMinSeenSecret (s : CounterpartyCommitmentSecrets) : Nat :=
  (List.finRange 49).foldl
    (fun min i => if (s.oldSecrets i).2 < min then (s.oldSecrets i).2 else min) (2 ^ 48)

/-- `derive_secret`: of the last `bits` bits those that `idx` has are flipped, each time with a
hash. -/
def deriveSecret (secret : Secret) (bits idx : Nat) : Secret :=
  derive (flipAndHash sha256) bits idx secret

/-- The check of a new secret: those in the places before its own can be derived from it. -/
def Matches (s : CounterpartyCommitmentSecrets) (idx : Nat) (secret : Secret) : Prop :=
  ∀ i : Fin 49, i < placeSecret idx →
    deriveSecret sha256 secret (placeSecret idx) (s.oldSecrets i).2 = (s.oldSecrets i).1

instance (s : CounterpartyCommitmentSecrets) (idx : Nat) (secret : Secret) :
    Decidable (s.Matches sha256 idx secret) :=
  inferInstanceAs (Decidable (∀ _ : Fin 49, _ → _))

/-- The new state, or `none` for an error. -/
def provideSecret (s : CounterpartyCommitmentSecrets) (idx : Nat) (secret : Secret) :
    Option CounterpartyCommitmentSecrets :=
  if s.Matches sha256 idx secret then
    if s.getMinSeenSecret ≤ idx then some s
    else some { oldSecrets := Function.update s.oldSecrets (placeSecret idx) (secret, idx) }
  else none

/-- `none` for the assertion that fails. -/
def getSecret (s : CounterpartyCommitmentSecrets) (idx : Nat) : Option (Option Secret) :=
  match Fin.find? (fun i : Fin 49 => idx / 2 ^ i.val * 2 ^ i.val = (s.oldSecrets i).2) with
  | some i => some (some (deriveSecret sha256 (s.oldSecrets i).1 i idx))
  | none => if idx < s.getMinSeenSecret then some none else none

end CounterpartyCommitmentSecrets

open CounterpartyCommitmentSecrets

/-! ## The place of an index -/

theorem two_pow_dvd_of_testBit {i idx : Nat} (h : ∀ j < i, idx.testBit j = false) :
    2 ^ i ∣ idx := by
  apply Nat.dvd_of_mod_eq_zero
  apply Nat.eq_of_testBit_eq
  intro j
  rw [Nat.testBit_mod_two_pow, Nat.zero_testBit]
  by_cases hj : j < i
  · simp [h j hj]
  · simp [hj]

theorem placeSecret_eq {i idx k : Nat} (hi : i < 48) (h : idx = 2 ^ i * (2 * k + 1)) :
    (placeSecret idx).val = i := by
  have hset : idx.testBit i = true := by
    rw [h, Nat.testBit_two_pow_mul]
    simp
  have hclear : ∀ j < i, idx.testBit j = false := by
    intro j hj
    rw [h]
    exact testBit_of_dvd (Nat.dvd_mul_right _ _) hj
  have hfind : Fin.find? (fun i : Fin 48 => idx.testBit i) = some ⟨i, hi⟩ := by
    rw [Fin.find?_eq_some_iff]
    exact ⟨hset, fun j hj => hclear j.val hj⟩
  unfold placeSecret
  rw [hfind]
  rfl

/-- Every index is an odd multiple of a power of two, or zero. -/
theorem placeSecret_cases {idx : Nat} (hidx : idx < 2 ^ 48) :
    (placeSecret idx).val < 48 ∧ (∃ k, idx = 2 ^ (placeSecret idx).val * (2 * k + 1)) ∨
      (placeSecret idx).val = 48 ∧ idx = 0 := by
  unfold placeSecret
  cases hfind : Fin.find? (fun i : Fin 48 => idx.testBit i) with
  | none =>
    right
    rw [Fin.find?_eq_none_iff] at hfind
    have hdvd : 2 ^ 48 ∣ idx := two_pow_dvd_of_testBit fun j hj => hfind ⟨j, hj⟩
    exact ⟨rfl, Nat.eq_zero_of_dvd_of_lt hdvd hidx⟩
  | some i =>
    left
    rw [Fin.find?_eq_some_iff] at hfind
    refine ⟨i.isLt, ?_⟩
    have hdvd : 2 ^ i.val ∣ idx := by
      apply two_pow_dvd_of_testBit
      intro j hj
      exact hfind.2 ⟨j, by omega⟩ hj
    obtain ⟨k, rfl⟩ := hdvd
    have hodd : k % 2 = 1 := by simpa [Nat.testBit_two_pow_mul] using hfind.1
    exact ⟨k / 2, by rw [Fin.val_castSucc, show 2 * (k / 2) + 1 = k by omega]⟩

theorem placeSecret_zero : (placeSecret 0).val = 48 := by decide

theorem placeSecret_dvd {idx : Nat} (hidx : idx < 2 ^ 48) : 2 ^ (placeSecret idx).val ∣ idx := by
  rcases placeSecret_cases hidx with ⟨-, k, hk⟩ | ⟨-, rfl⟩
  · exact ⟨_, hk⟩
  · exact Nat.dvd_zero _

theorem lt_placeSecret {idx i : Nat} (hidx : idx < 2 ^ 48) (hi : i < 48) :
    i < (placeSecret idx).val ↔ 2 ^ (i + 1) ∣ idx := by
  rcases placeSecret_cases hidx with ⟨-, k, hk⟩ | ⟨hlast, rfl⟩
  · constructor
    · intro hlt
      exact dvd_trans (pow_dvd_pow 2 hlt) ⟨_, hk⟩
    · intro hdvd
      by_contra hle
      have hodd : 2 ^ ((placeSecret idx).val + 1) ∣ idx :=
        dvd_trans (pow_dvd_pow 2 (by omega)) hdvd
      rw [pow_succ] at hodd
      obtain ⟨l, hl⟩ := hodd
      rw [Nat.mul_assoc] at hl
      have := Nat.eq_of_mul_eq_mul_left (Nat.two_pow_pos _) (hk.symm.trans hl)
      omega
  · simp [hlast, hi]

/-! ## What the places hold -/

/-- `idx` is the lowest of the indexes from `low` on whose secrets go to place `i`, or `2 ^ 48` if
there are none. -/
structure Lowest (low : Nat) (i : Fin 49) (idx : Nat) : Prop where
  le : idx ≤ 2 ^ 48
  low_le : low ≤ idx
  place : idx < 2 ^ 48 → placeSecret idx = i
  lowest : ∀ idx', low ≤ idx' → idx' < 2 ^ 48 → placeSecret idx' = i → idx ≤ idx'

theorem Lowest.empty (i : Fin 49) : Lowest (2 ^ 48) i (2 ^ 48) where
  le := Nat.le_refl _
  low_le := Nat.le_refl _
  place h := absurd h (Nat.lt_irrefl _)
  lowest _ h _ _ := h

/-- The lowest index there is has the place to itself. -/
theorem Lowest.self {low : Nat} (h : low < 2 ^ 48) : Lowest low (placeSecret low) low where
  le := Nat.le_of_lt h
  low_le := Nat.le_refl _
  place _ := rfl
  lowest _ h _ _ := h

/-- The other places keep what they have when the next index comes. -/
theorem Lowest.down {low idx : Nat} {i : Fin 49} (h : Lowest (low + 1) i idx)
    (hi : placeSecret low ≠ i) : Lowest low i idx where
  le := h.le
  low_le := Nat.le_of_succ_le h.low_le
  place := h.place
  lowest := by
    intro idx' hlow hlt hplace
    rcases Nat.eq_or_lt_of_le hlow with rfl | hlow
    · exact absurd hplace hi
    · exact h.lowest idx' hlow hlt hplace

/-- Next above an index with its lowest bits zero is the one with bit `i` set. -/
theorem Lowest.above {low idx : Nat} {i : Fin 49} (h : Lowest (low + 1) i idx)
    (hlow : low < 2 ^ 48) (hi : i < placeSecret low) : idx = low + 2 ^ i.val := by
  have hi48 : i.val < 48 := by
    have := (placeSecret low).isLt
    have : i.val < (placeSecret low).val := hi
    omega
  have hdvd := (lt_placeSecret hlow hi48).mp hi
  have hlt := add_two_pow_lt hi48 hlow hdvd
  have hpos := Nat.two_pow_pos i.val
  obtain ⟨k, hk⟩ := hdvd
  have hplace : placeSecret (low + 2 ^ i.val) = i := by
    apply Fin.ext
    apply placeSecret_eq (k := k) hi48
    rw [hk, pow_succ, Nat.mul_add, Nat.mul_one, Nat.mul_assoc]
  have hle := h.lowest _ (by omega) hlt hplace
  -- Both are multiples of `2 ^ i`, and `idx` is not `low`.
  have hdvd : 2 ^ i.val ∣ idx - low := by
    apply Nat.dvd_sub
    · rw [← h.place (by omega)]
      exact placeSecret_dvd (by omega)
    · exact dvd_trans (pow_dvd_pow 2 (Nat.le_succ _)) ⟨k, hk⟩
  have hge := Nat.le_of_dvd (by have := h.low_le; omega) hdvd
  omega

/-- If a place holds another index than the one with bit `t` set last, the index without that bit
is not below `low`. -/
theorem Lowest.low_le_of_ne {low t k idx : Nat} (ht : t < 48)
    (h : Lowest low ⟨t, by omega⟩ idx) (hlow : low ≤ 2 ^ t * (2 * k + 1))
    (hlt : 2 ^ t * (2 * k + 1) < 2 ^ 48) (hne : idx ≠ 2 ^ t * (2 * k + 1)) :
    low ≤ 2 ^ t * (2 * k) := by
  have hle := h.lowest _ hlow hlt (Fin.ext (placeSecret_eq ht rfl))
  have hplace : (placeSecret idx).val = t := by rw [h.place (by omega)]
  rcases placeSecret_cases (by omega : idx < 2 ^ 48) with ⟨-, l, hl⟩ | ⟨hlast, -⟩
  · rw [hplace] at hl
    have hlk : 2 * l + 1 < 2 * k + 1 := by
      apply Nat.lt_of_mul_lt_mul_left
      rw [← hl]
      omega
    calc low ≤ idx := h.low_le
      _ = 2 ^ t * (2 * l + 1) := hl
      _ ≤ 2 ^ t * (2 * k) := Nat.mul_le_mul_left _ (by omega)
  · omega

section Minimum
variable {α : Type} (f : α → Nat)

theorem foldl_min_le (l : List α) (n : Nat) :
    l.foldl (fun min a => if f a < min then f a else min) n ≤ n ∧
      ∀ a ∈ l, l.foldl (fun min a => if f a < min then f a else min) n ≤ f a := by
  induction l generalizing n with
  | nil => simp
  | cons b l ih =>
    rw [List.foldl_cons]
    obtain ⟨hle, hmem⟩ := ih (if f b < n then f b else n)
    have hb : (if f b < n then f b else n) ≤ f b ∧ (if f b < n then f b else n) ≤ n := by
      split <;> omega
    refine ⟨Nat.le_trans hle hb.2, ?_⟩
    intro a ha
    rcases List.mem_cons.mp ha with rfl | ha
    · exact Nat.le_trans hle hb.1
    · exact hmem a ha

theorem le_foldl_min {low n : Nat} (l : List α) (hn : low ≤ n) (h : ∀ a, low ≤ f a) :
    low ≤ l.foldl (fun min a => if f a < min then f a else min) n := by
  induction l generalizing n with
  | nil => exact hn
  | cons b l ih =>
    apply ih
    show low ≤ if f b < n then f b else n
    have := h b
    split <;> omega

end Minimum

/-- The secrets given from index `low` on are `secretAt`, and the places hold the lowest of each. -/
structure Keeps (s : CounterpartyCommitmentSecrets) (secretAt : Nat → Secret) (low : Nat) :
    Prop where
  low_le : low ≤ 2 ^ 48
  lowest : ∀ i, Lowest low i (s.oldSecrets i).2
  secret : ∀ i, (s.oldSecrets i).2 < 2 ^ 48 → (s.oldSecrets i).1 = secretAt (s.oldSecrets i).2
  linked : Linked (flipAndHash sha256) secretAt low 48

variable {sha256} {s : CounterpartyCommitmentSecrets} {secretAt : Nat → Secret} {low : Nat}

/-- Before the first secret there are none. -/
theorem keeps_new (secretAt : Nat → Secret) : Keeps sha256 new secretAt (2 ^ 48) where
  low_le := Nat.le_refl _
  lowest i := Lowest.empty i
  secret _ h := absurd h (Nat.lt_irrefl _)
  linked := by
    intro base i hlow hbase
    omega

/-- The lowest index of a kept secret is the lowest accepted. -/
theorem Keeps.getMinSeenSecret_eq (h : Keeps sha256 s secretAt low) :
    s.getMinSeenSecret = low := by
  obtain ⟨hle, hmem⟩ := foldl_min_le (fun i => (s.oldSecrets i).2) (List.finRange 49) (2 ^ 48)
  apply Nat.le_antisymm
  · rcases Nat.eq_or_lt_of_le h.low_le with hlow | hlow
    · rw [hlow]
      exact hle
    · exact Nat.le_trans (hmem _ (List.mem_finRange (placeSecret low)))
        ((h.lowest _).lowest low (Nat.le_refl _) hlow rfl)
  · exact le_foldl_min _ _ h.low_le fun i => (h.lowest i).low_le

/-! ## Giving a secret -/

/-- A secret that is accepted is linked to those kept; it is put in its place if it is new. -/
theorem provideSecret_cases {s' : CounterpartyCommitmentSecrets} {idx : Nat} {secret : Secret}
    (h : s.provideSecret sha256 idx secret = some s') :
    s.Matches sha256 idx secret ∧
      (s.getMinSeenSecret ≤ idx ∧ s' = s ∨
        idx < s.getMinSeenSecret ∧
          s' = { oldSecrets := Function.update s.oldSecrets (placeSecret idx) (secret, idx) }) := by
  unfold provideSecret at h
  split at h
  case isTrue hmatch =>
    refine ⟨hmatch, ?_⟩
    split at h
    case isTrue hle => exact .inl ⟨hle, (Option.some.inj h).symm⟩
    case isFalse hlt => exact .inr ⟨Nat.lt_of_not_le hlt, (Option.some.inj h).symm⟩
  case isFalse => exact absurd h (by simp)

theorem provideSecret_of_matches {idx : Nat} {secret : Secret}
    (h : s.Matches sha256 idx secret) : ∃ s', s.provideSecret sha256 idx secret = some s' := by
  unfold provideSecret
  rw [if_pos h]
  split
  · exact ⟨_, rfl⟩
  · exact ⟨_, rfl⟩

/-- Below the lowest index, the check is on the secrets of the indexes with one more bit set. -/
theorem Keeps.matches_iff {idx : Nat} (h : Keeps sha256 s secretAt (idx + 1)) (hidx : idx < 2 ^ 48)
    (secret : Secret) :
    s.Matches sha256 idx secret ↔ ∀ i, i < 48 → 2 ^ (i + 1) ∣ idx →
      secretAt (idx + 2 ^ i) = flipAndHash sha256 i secret := by
  have hplace := placeSecret_dvd hidx
  have hslot : ∀ i : Fin 49, i < placeSecret idx →
      (deriveSecret sha256 secret (placeSecret idx) (s.oldSecrets i).2 = (s.oldSecrets i).1 ↔
        secretAt (idx + 2 ^ i.val) = flipAndHash sha256 i secret) := by
    intro i hi
    have hi' : i.val < (placeSecret idx).val := hi
    have hi48 : i.val < 48 := by
      have := (placeSecret idx).isLt
      omega
    have habove := (h.lowest i).above hidx hi
    have hlt := add_two_pow_lt hi48 hidx ((lt_placeSecret hidx hi48).mp hi)
    rw [h.secret i (by omega), habove, deriveSecret,
      derive_add_low hplace (Nat.pow_lt_pow_right (by decide) hi'), derive_pow hi']
    exact eq_comm
  constructor
  · intro hm i hi hdvd
    have hlt := (lt_placeSecret hidx hi).mpr hdvd
    exact (hslot ⟨i, by omega⟩ hlt).mp (hm ⟨i, by omega⟩ hlt)
  · intro hm i hi
    have hi48 : i.val < 48 := by
      have := (placeSecret idx).isLt
      have : i.val < (placeSecret idx).val := hi
      omega
    exact (hslot i hi).mpr (hm i hi48 ((lt_placeSecret hidx hi48).mp hi))

/-- **A secret that the kept ones match is linked to all that were ever accepted**: those not kept
are derived from one that is. -/
theorem Keeps.linked_update {idx : Nat} (h : Keeps sha256 s secretAt (idx + 1))
    (hidx : idx < 2 ^ 48) {secret : Secret} (hm : s.Matches sha256 idx secret) :
    Linked (flipAndHash sha256) (Function.update secretAt idx secret) idx 48 := by
  intro base i hlow hbase hi hdvd
  have hpos := Nat.two_pow_pos i
  rcases Nat.eq_or_lt_of_le hlow with rfl | hlow
  · rw [Function.update_self, Function.update_of_ne (by omega)]
    exact (h.matches_iff hidx secret).mp hm i hi hdvd
  · rw [Function.update_of_ne (by omega), Function.update_of_ne (by omega)]
    exact h.linked base i hlow hbase hi hdvd

/-- A secret for the next index takes its place. -/
theorem Keeps.store {idx : Nat} (h : Keeps sha256 s secretAt (idx + 1)) (hidx : idx < 2 ^ 48)
    {secret : Secret} (hm : s.Matches sha256 idx secret) :
    Keeps sha256 { oldSecrets := Function.update s.oldSecrets (placeSecret idx) (secret, idx) }
      (Function.update secretAt idx secret) idx where
  low_le := Nat.le_of_lt hidx
  lowest i := by
    by_cases hi : i = placeSecret idx
    · subst hi
      simpa using Lowest.self hidx
    · simpa [Function.update_of_ne hi] using (h.lowest i).down (Ne.symm hi)
  secret i hlt := by
    by_cases hi : i = placeSecret idx
    · subst hi
      simp
    · simp only [Function.update_of_ne hi] at hlt ⊢
      have := (h.lowest i).low_le
      rw [Function.update_of_ne (by omega)]
      exact h.secret i hlt
  linked := h.linked_update hidx hm

/-! ## Getting a secret back -/

/-- Where no place has `idx` below it, every index above it in the tree has been given. -/
theorem Keeps.low_le_above (h : Keeps sha256 s secretAt low) {idx : Nat} (hlow : low ≤ idx)
    (hidx : idx < 2 ^ 48) (hno : ∀ i : Fin 49, idx / 2 ^ i.val * 2 ^ i.val ≠ (s.oldSecrets i).2)
    {t : Nat} (ht : t ≤ 48) : low ≤ idx / 2 ^ t * 2 ^ t := by
  induction t with
  | zero => simpa using hlow
  | succ t ih =>
    have ih := ih (by omega)
    have hhalf : idx / 2 ^ (t + 1) = idx / 2 ^ t / 2 := by rw [pow_succ, Nat.div_div_eq_div_mul]
    have hle : idx / 2 ^ t * 2 ^ t ≤ idx := Nat.div_mul_le_self idx (2 ^ t)
    rcases Nat.mod_two_eq_zero_or_one (idx / 2 ^ t) with heven | hodd
    · -- Bit `t` is not set, and the index above is the same.
      have : idx / 2 ^ t / 2 * (2 ^ t * 2) = idx / 2 ^ t * 2 ^ t := by
        rw [Nat.mul_comm (2 ^ t), ← Nat.mul_assoc]
        congr 1
        omega
      rwa [hhalf, pow_succ, this]
    · -- Bit `t` is set, and place `t` has a lower index than `idx` with the bits below cleared.
      obtain ⟨k, hk⟩ : ∃ k, idx / 2 ^ t = 2 * k + 1 := ⟨idx / 2 ^ t / 2, by omega⟩
      have hne := hno ⟨t, by omega⟩
      simp only [hk, Nat.mul_comm _ (2 ^ t)] at ih hle hne
      have habove := (h.lowest ⟨t, by omega⟩).low_le_of_ne (by omega) ih (by omega) (Ne.symm hne)
      rwa [hhalf, hk, pow_succ, show (2 * k + 1) / 2 = k by omega, Nat.mul_left_comm,
        Nat.mul_comm k]

/-- **What is kept answers for every index from the lowest on**, and the assertion holds. -/
theorem Keeps.getSecret_eq (h : Keeps sha256 s secretAt low) {idx : Nat} (hidx : idx < 2 ^ 48) :
    s.getSecret sha256 idx = some (if low ≤ idx then some (secretAt idx) else none) := by
  unfold getSecret
  split
  case h_1 i hfind =>
    rw [Fin.find?_eq_some_iff] at hfind
    have hcut : idx / 2 ^ i.val * 2 ^ i.val = (s.oldSecrets i).2 := by simpa using hfind.1
    have hidx' : (s.oldSecrets i).2 + idx % 2 ^ i.val = idx := by
      rw [← hcut]
      exact Nat.div_add_mod' idx _
    have hr : idx % 2 ^ i.val < 2 ^ i.val := Nat.mod_lt _ (Nat.two_pow_pos _)
    have hdvd : 2 ^ i.val ∣ (s.oldSecrets i).2 := ⟨_, by rw [← hcut, Nat.mul_comm]⟩
    have hlow := (h.lowest i).low_le
    have hderive := h.linked.derive_eq (by omega : i.val ≤ 48) hlow (by omega) hdvd hr
    rw [hidx'] at hderive
    rw [if_pos (by omega), hderive, h.secret i (by omega), deriveSecret,
      ← derive_add_low hdvd hr, hidx']
  case h_2 hfind =>
    rw [Fin.find?_eq_none_iff] at hfind
    have hno : ∀ i : Fin 49, idx / 2 ^ i.val * 2 ^ i.val ≠ (s.oldSecrets i).2 := by
      intro i
      simpa using hfind i
    rw [h.getMinSeenSecret_eq]
    rcases Nat.lt_or_ge idx low with hlt | hge
    · rw [if_pos hlt, if_neg (by omega)]
    · -- With index 0 given, the last place would have been found.
      exfalso
      have hzero := h.low_le_above hge hidx hno (Nat.le_refl 48)
      have hlast := hno (Fin.last 48)
      rw [Nat.div_eq_of_lt hidx, Nat.zero_mul] at hzero
      rw [Fin.val_last, Nat.div_eq_of_lt hidx, Nat.zero_mul] at hlast
      have := (h.lowest (Fin.last 48)).lowest 0 hzero (by decide) (Fin.ext placeSecret_zero)
      omega

/-! ## Runs of a channel -/

/-- The secrets that were accepted, each for the index after the last one or for an earlier one
again. -/
inductive Run (sha256 : Secret → Secret) :
    CounterpartyCommitmentSecrets → List (Nat × Secret) → Prop
  | new : Run sha256 new []
  | provide {s s' : CounterpartyCommitmentSecrets} {given : List (Nat × Secret)} {idx : Nat}
      {secret : Secret} (run : Run sha256 s given) (hidx : idx < 2 ^ 48)
      (hnext : s.getMinSeenSecret ≤ idx + 1)
      (hprovide : s.provideSecret sha256 idx secret = some s') :
      Run sha256 s' (given ++ [(idx, secret)])

variable {given : List (Nat × Secret)}

theorem lookup_concat (given : List (Nat × Secret)) (idx idx' : Nat) (secret : Secret) :
    (given ++ [(idx, secret)]).lookup idx' =
      (given.lookup idx').or (if idx' = idx then some secret else none) := by
  rw [List.lookup_append, List.lookup_cons]
  by_cases h : idx' = idx
  · simp [h]
  · simp [h, beq_false_of_ne h]

/-- A run keeps some secret for every index that was reached, the first accepted for it. -/
theorem Run.keeps (run : Run sha256 s given) : ∃ secretAt low, Keeps sha256 s secretAt low ∧
    ∀ idx < 2 ^ 48, given.lookup idx = if low ≤ idx then some (secretAt idx) else none := by
  induction run with
  | new =>
    refine ⟨fun _ => Vector.replicate 32 0, 2 ^ 48, keeps_new _, ?_⟩
    intro idx hidx
    rw [if_neg (by omega)]
    rfl
  | @provide s s' given idx secret run hidx hnext hprovide ih =>
    obtain ⟨secretAt, low, hkeeps, hgiven⟩ := ih
    have hlow := hkeeps.getMinSeenSecret_eq
    obtain ⟨hm, ⟨hle, rfl⟩ | ⟨hlt, rfl⟩⟩ := provideSecret_cases hprovide
    · refine ⟨secretAt, low, hkeeps, ?_⟩
      intro idx' hidx'
      rw [lookup_concat, hgiven idx' hidx']
      by_cases hle' : low ≤ idx'
      · rw [if_pos hle', Option.some_or]
      · rw [if_neg hle', if_neg (by omega), Option.none_or]
    · obtain rfl : low = idx + 1 := by omega
      refine ⟨_, idx, hkeeps.store hidx hm, ?_⟩
      intro idx' hidx'
      rw [lookup_concat, hgiven idx' hidx']
      rcases Nat.lt_trichotomy idx' idx with hlt | rfl | hgt
      · rw [if_neg (by omega), if_neg (by omega), if_neg (by omega), Option.none_or]
      · rw [if_neg (by omega), if_pos rfl, if_pos (Nat.le_refl _), Option.none_or,
          Function.update_self]
      · rw [if_pos (by omega), Option.some_or, if_pos (by omega), Function.update_of_ne (by omega)]

variable (sha256) in
/-- The first `n` secrets of a counterparty that makes them from a seed. -/
def revoked (commitmentSeed : Secret) (n : Nat) : List (Nat × Secret) :=
  (List.range n).map fun k =>
    (2 ^ 48 - 1 - k, buildCommitmentSecret sha256 commitmentSeed (2 ^ 48 - 1 - k))

/-- Every one of them is accepted. -/
theorem exists_run_revoked (commitmentSeed : Secret) {n : Nat} (hn : n ≤ 2 ^ 48) :
    ∃ s, Run sha256 s (revoked sha256 commitmentSeed n) ∧
      Keeps sha256 s (buildCommitmentSecret sha256 commitmentSeed) (2 ^ 48 - n) := by
  induction n with
  | zero => exact ⟨new, .new, keeps_new _⟩
  | succ n ih =>
    obtain ⟨s, run, hkeeps⟩ := ih (by omega)
    obtain ⟨idx, hidx⟩ : ∃ idx, idx = 2 ^ 48 - 1 - n := ⟨_, rfl⟩
    have hmin := hkeeps.getMinSeenSecret_eq
    rw [show 2 ^ 48 - n = idx + 1 by omega] at hkeeps hmin
    have hlt : idx < 2 ^ 48 := by omega
    have hm : s.Matches sha256 idx (buildCommitmentSecret sha256 commitmentSeed idx) := by
      rw [hkeeps.matches_iff hlt]
      intro i hi hdvd
      exact linked_derive commitmentSeed 0 48 idx i (Nat.zero_le _) hlt hi hdvd
    obtain ⟨s', hs'⟩ := provideSecret_of_matches hm
    refine ⟨s', ?_, ?_⟩
    · rw [revoked, List.range_succ, List.map_append, List.map_singleton, ← hidx]
      exact .provide run hlt (by omega) hs'
    · have hstore := hkeeps.store hlt hm
      rw [Function.update_eq_self] at hstore
      obtain ⟨-, ⟨hle, -⟩ | ⟨-, rfl⟩⟩ := provideSecret_cases hs'
      · omega
      · rwa [show 2 ^ 48 - (n + 1) = idx by omega]

/-- The 49 places answer as a list of all the accepted secrets would, the first for an index
counting, and the assertion never fails. -/
theorem getSecret_given (run : Run sha256 s given) {idx : Nat} (hidx : idx < 2 ^ 48) :
    s.getSecret sha256 idx = some (given.lookup idx) ∧
      ((given.lookup idx).isSome ↔ s.getMinSeenSecret ≤ idx) := by
  obtain ⟨secretAt, low, hkeeps, hgiven⟩ := run.keeps
  rw [hkeeps.getSecret_eq hidx, hgiven idx hidx, hkeeps.getMinSeenSecret_eq]
  refine ⟨rfl, ?_⟩
  by_cases hle : low ≤ idx
  · simp [hle]
  · simp [hle]

/-- Three of one seed, and none for the fourth. -/
theorem getSecret_given_of_three :
    ∃ s given, Run id s given ∧
      s.getSecret id (2 ^ 48 - 3) = some (given.lookup (2 ^ 48 - 3)) ∧
      s.getSecret id (2 ^ 48 - 4) = some none := by
  obtain ⟨s, run, hkeeps⟩ :=
    @exists_run_revoked id (Vector.replicate 32 7) 3 (by decide)
  refine ⟨s, _, run, (getSecret_given run (by decide)).1, ?_⟩
  rw [hkeeps.getSecret_eq (by decide)]
  rfl

/-- A secret for the next index is accepted if and only if the secret that was first accepted for
each index below it in the tree can be derived from it, and not just those that are still kept. -/
theorem provideSecret_accepts_iff (run : Run sha256 s given) {idx : Nat} (hidx : idx < 2 ^ 48)
    (hnext : s.getMinSeenSecret = idx + 1) (secret : Secret) :
    (∃ s', s.provideSecret sha256 idx secret = some s') ↔
      ∀ r, 0 < r → r < 2 ^ (placeSecret idx).val →
        given.lookup (idx + r) =
          some (deriveSecret sha256 secret (placeSecret idx) (idx + r)) := by
  obtain ⟨secretAt, low, hkeeps, hgiven⟩ := run.keeps
  obtain rfl : low = idx + 1 := by rw [← hkeeps.getMinSeenSecret_eq, hnext]
  have hplace := placeSecret_dvd hidx
  have hle : (placeSecret idx).val ≤ 48 := by omega
  have hlookup : ∀ r, 0 < r → r < 2 ^ (placeSecret idx).val →
      given.lookup (idx + r) = some (secretAt (idx + r)) := by
    intro r hpos hr
    have := add_two_pow_le hle hidx hplace
    rw [hgiven _ (by omega), if_pos (by omega)]
  constructor
  · rintro ⟨s', hs'⟩ r hpos hr
    have hlinked := hkeeps.linked_update hidx (provideSecret_cases hs').1
    have hderive := hlinked.derive_eq hle (Nat.le_refl _) hidx hplace hr
    rw [Function.update_self, Function.update_of_ne (by omega)] at hderive
    rw [hlookup r hpos hr, hderive, deriveSecret, derive_add_low hplace hr]
  · intro hall
    apply provideSecret_of_matches
    rw [hkeeps.matches_iff hidx]
    intro i hi hdvd
    have hlt := (lt_placeSecret hidx hi).mpr hdvd
    have hpow : 2 ^ i < 2 ^ (placeSecret idx).val := Nat.pow_lt_pow_right (by decide) hlt
    have hi' := hall (2 ^ i) (Nat.two_pow_pos i) hpow
    rw [hlookup _ (Nat.two_pow_pos i) hpow, deriveSecret, derive_add_low hplace hpow,
      derive_pow hlt] at hi'
    exact Option.some.inj hi'

/-- The fourth secret has to give the three before it. -/
theorem provideSecret_accepts_iff_of_three :
    ∃ s given, Run id s given ∧ s.getMinSeenSecret = 2 ^ 48 - 3 ∧
      ∀ secret, (∃ s', s.provideSecret id (2 ^ 48 - 4) secret = some s') ↔
        ∀ r, 0 < r → r < 2 ^ (placeSecret (2 ^ 48 - 4)).val →
          given.lookup (2 ^ 48 - 4 + r) =
            some (deriveSecret id secret (placeSecret (2 ^ 48 - 4)) (2 ^ 48 - 4 + r)) := by
  obtain ⟨s, run, hkeeps⟩ :=
    @exists_run_revoked id (Vector.replicate 32 7) 3 (by decide)
  refine ⟨s, _, run, hkeeps.getMinSeenSecret_eq, ?_⟩
  intro secret
  exact provideSecret_accepts_iff run (by decide) hkeeps.getMinSeenSecret_eq secret

/-- From a counterparty that makes its secrets from a seed all are accepted, and come back as they
were made. -/
theorem revoked_comes_back (commitmentSeed : Secret) {n : Nat} (hn : n ≤ 2 ^ 48) :
    ∃ s, Run sha256 s (revoked sha256 commitmentSeed n) ∧
      ∀ idx < 2 ^ 48, s.getSecret sha256 idx =
        some (if 2 ^ 48 - n ≤ idx then some (buildCommitmentSecret sha256 commitmentSeed idx)
          else none) := by
  obtain ⟨s, run, hkeeps⟩ := exists_run_revoked commitmentSeed hn
  exact ⟨s, run, fun idx hidx => hkeeps.getSecret_eq hidx⟩

theorem revoked_comes_back_of_two :
    ∃ s, Run id s (revoked id (Vector.replicate 32 7) 2) ∧
      ∀ idx < 2 ^ 48, s.getSecret id idx =
        some (if 2 ^ 48 - 2 ≤ idx then
          some (buildCommitmentSecret id (Vector.replicate 32 7) idx) else none) :=
  revoked_comes_back (Vector.replicate 32 7) (by decide)

end HiddenLightning.CommitmentSecrets
