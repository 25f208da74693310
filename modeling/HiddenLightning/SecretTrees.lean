import Mathlib.Algebra.Order.Ring.Nat
import Mathlib.Algebra.Ring.Divisibility.Basic

/-! # Secrets that are hashed down a tree

Every index has a secret, and the secret of an index whose lowest bits are zero gives those of all
the indexes that differ from it in these bits only: from the highest such bit to the lowest, it is
hashed once for every bit that is set.  `H i` is the hash for bit `i`. -/
namespace SecretTrees
variable {β : Type} (H : Nat → β → β)

/-- The secret of `idx`, from that of the index which is `idx` with its lowest `bits` bits zero. -/
def derive : (bits idx : Nat) → β → β
  | 0, _, secret => secret
  | bits + 1, idx, secret => derive bits idx (if idx.testBit bits then H bits secret else secret)

variable {H}

/-- Only the lowest bits of the index count. -/
theorem derive_congr {bits idx idx' : Nat} (h : ∀ i < bits, idx.testBit i = idx'.testBit i)
    (secret : β) : derive H bits idx secret = derive H bits idx' secret := by
  induction bits generalizing secret with
  | zero => rfl
  | succ bits ih =>
    rw [derive, derive, h bits (Nat.lt_succ_self bits)]
    exact ih (fun i hi => h i (Nat.lt_succ_of_lt hi)) _

theorem testBit_of_dvd {bits base : Nat} (h : 2 ^ bits ∣ base) {i : Nat} (hi : i < bits) :
    base.testBit i = false := by
  obtain ⟨k, rfl⟩ := h
  simp [Nat.testBit_two_pow_mul, Nat.not_le.mpr hi]

/-- Below a multiple of `2 ^ bits`, the lowest bits are those of what is added to it. -/
theorem testBit_add_low {bits base r : Nat} (h : 2 ^ bits ∣ base) (hr : r < 2 ^ bits) {i : Nat}
    (hi : i < bits) : (base + r).testBit i = r.testBit i := by
  obtain ⟨k, rfl⟩ := h
  simp [Nat.testBit_two_pow_mul_add k hr, hi]

theorem testBit_add_high {bits base r : Nat} (h : 2 ^ bits ∣ base) (hr : r < 2 ^ bits) {i : Nat}
    (hi : bits ≤ i) : (base + r).testBit i = base.testBit i := by
  obtain ⟨k, rfl⟩ := h
  simp [Nat.testBit_two_pow_mul_add k hr, Nat.testBit_two_pow_mul, Nat.not_lt.mpr hi, hi]

theorem derive_add_low {bits base r : Nat} (h : 2 ^ bits ∣ base) (hr : r < 2 ^ bits)
    (secret : β) : derive H bits (base + r) secret = derive H bits r secret :=
  derive_congr (fun _ hi => testBit_add_low h hr hi) secret

theorem derive_of_dvd {bits base : Nat} (h : 2 ^ bits ∣ base) (secret : β) :
    derive H bits base secret = secret := by
  induction bits generalizing secret with
  | zero => rfl
  | succ bits ih =>
    rw [derive, testBit_of_dvd h (Nat.lt_succ_self bits)]
    exact ih (dvd_trans (pow_dvd_pow 2 (Nat.le_succ bits)) h) secret

/-- For an index with one bit set there is one hash. -/
theorem derive_pow {bits i : Nat} (h : i < bits) (secret : β) :
    derive H bits (2 ^ i) secret = H i secret := by
  induction bits with
  | zero => omega
  | succ bits ih =>
    rw [derive, Nat.testBit_two_pow]
    by_cases hi : i = bits
    · subst hi
      simpa using derive_of_dvd (dvd_refl (2 ^ i)) (H i secret)
    · simpa [hi] using ih (by omega)

/-- The high bits are hashed first. -/
theorem derive_add {bits n base r : Nat} (hn : bits ≤ n) (h : 2 ^ bits ∣ base)
    (hr : r < 2 ^ bits) (secret : β) :
    derive H n (base + r) secret = derive H bits r (derive H n base secret) := by
  induction n, hn using Nat.le_induction generalizing secret with
  | base => rw [derive_add_low h hr, derive_of_dvd h]
  | succ n hn ih =>
    rw [derive, derive, testBit_add_high h hr hn]
    exact ih _

/-- The lowest bits of an index can be set without its becoming longer. -/
theorem add_two_pow_le {n bits base : Nat} (hbits : bits ≤ n) (hbase : base < 2 ^ n)
    (h : 2 ^ bits ∣ base) : base + 2 ^ bits ≤ 2 ^ n := by
  obtain ⟨k, rfl⟩ := h
  obtain ⟨l, hl⟩ : 2 ^ bits ∣ 2 ^ n := pow_dvd_pow 2 hbits
  rw [hl] at hbase ⊢
  exact Nat.mul_le_mul_left _ (Nat.lt_of_mul_lt_mul_left hbase)

theorem add_two_pow_lt {n i base : Nat} (hi : i < n) (hbase : base < 2 ^ n)
    (h : 2 ^ (i + 1) ∣ base) : base + 2 ^ i < 2 ^ n := by
  have hle := add_two_pow_le hi hbase h
  have := Nat.two_pow_pos i
  rw [pow_succ] at hle
  omega

variable (H)

/-- From index `low` on, every secret of an index of `depth` bits is the hash of that above it. -/
def Linked (secretAt : Nat → β) (low depth : Nat) : Prop :=
  ∀ base i, low ≤ base → base < 2 ^ depth → i < depth → 2 ^ (i + 1) ∣ base →
    secretAt (base + 2 ^ i) = H i (secretAt base)

variable {H} {secretAt : Nat → β} {low depth : Nat}

/-- Then every secret gives all those below it. -/
theorem Linked.derive_eq (hlinked : Linked H secretAt low depth) {bits base r : Nat}
    (hbits : bits ≤ depth) (hlow : low ≤ base) (hbase : base < 2 ^ depth) (h : 2 ^ bits ∣ base)
    (hr : r < 2 ^ bits) : secretAt (base + r) = derive H bits r (secretAt base) := by
  -- The highest of the bits is either not set, or takes the first hash.
  induction bits generalizing base r with
  | zero =>
    obtain rfl : r = 0 := by simpa using hr
    rfl
  | succ bits ih =>
    have hdvd : 2 ^ bits ∣ base := dvd_trans (pow_dvd_pow 2 (Nat.le_succ bits)) h
    rcases Nat.lt_or_ge r (2 ^ bits) with hlt | hge
    · rw [derive, Nat.testBit_lt_two_pow hlt]
      exact ih (by omega) hlow hbase hdvd hlt
    · obtain ⟨r, rfl⟩ := Nat.exists_eq_add_of_le hge
      have hr : r < 2 ^ bits := by
        rw [pow_succ] at hr
        omega
      have hdvd' : 2 ^ bits ∣ base + 2 ^ bits := dvd_add hdvd (dvd_refl _)
      have hbase' : base + 2 ^ bits < 2 ^ depth := add_two_pow_lt hbits hbase h
      rw [derive, Nat.testBit_two_pow_add_eq, Nat.testBit_lt_two_pow hr, ← Nat.add_assoc,
        ih (by omega) (by omega) hbase' hdvd' hr, hlinked base bits hlow hbase (by omega) h,
        derive_add_low (dvd_refl _) hr]
      rfl

/-- Secrets that are all derived from one seed are linked. -/
theorem linked_derive (seed : β) (low depth : Nat) :
    Linked H (fun idx => derive H depth idx seed) low depth := by
  intro base i _ _ hi hdvd
  have hlt : 2 ^ i < 2 ^ (i + 1) := by
    rw [pow_succ]
    have := Nat.two_pow_pos i
    omega
  show derive H depth (base + 2 ^ i) seed = H i (derive H depth base seed)
  rw [derive_add (by omega : i + 1 ≤ depth) hdvd hlt, derive_pow (Nat.lt_succ_self i)]

end SecretTrees
