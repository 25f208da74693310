import Mathlib.Tactic.Ring

/-! # Numbers as bytes, the highest first

A number below `256 ^ k` is `k` bytes, and can be told from them, also if the zero bytes before the
first that is not zero are left out. -/
namespace BigEndian

/-- The number that bytes stand for. -/
def ofBytes (bytes : List UInt8) : Nat := bytes.foldl (fun n b => n * 256 + b.toNat) 0

/-- The last `k` bytes of a number. -/
def toBytes : (k : Nat) → Nat → List UInt8
  | 0, _ => []
  | k + 1, n => toBytes k (n / 256) ++ [UInt8.ofNat (n % 256)]

/-- Bytes without the zero bytes they start with. -/
def dropZeros (bytes : List UInt8) : List UInt8 := bytes.dropWhile (· = 0)

@[simp] theorem length_toBytes (k n : Nat) : (toBytes k n).length = k := by
  induction k generalizing n with
  | zero => rfl
  | succ k ih => simp [toBytes, ih]

@[simp] theorem ofBytes_concat (bytes : List UInt8) (b : UInt8) :
    ofBytes (bytes ++ [b]) = ofBytes bytes * 256 + b.toNat := by
  simp [ofBytes, List.foldl_append]

/-- The number is read on from `n`. -/
theorem foldl_lt {n k : Nat} (hn : n < 256 ^ k) (bytes : List UInt8) :
    bytes.foldl (fun n b => n * 256 + b.toNat) n < 256 ^ (k + bytes.length) := by
  induction bytes generalizing n k with
  | nil => exact hn
  | cons b bytes ih =>
    have hb := b.toNat_lt
    have hnext : n * 256 + b.toNat < 256 ^ (k + 1) := by
      rw [pow_succ]
      omega
    rw [List.foldl_cons, List.length_cons, Nat.add_comm bytes.length, ← Nat.add_assoc]
    exact ih hnext

theorem ofBytes_lt (bytes : List UInt8) : ofBytes bytes < 256 ^ bytes.length := by
  have h := foldl_lt (n := 0) (k := 0) (by decide) bytes
  rwa [Nat.zero_add] at h

theorem ofBytes_toBytes {k n : Nat} (h : n < 256 ^ k) : ofBytes (toBytes k n) = n := by
  induction k generalizing n with
  | zero =>
    obtain rfl : n = 0 := by simpa using h
    rfl
  | succ k ih =>
    have hhigh : n / 256 < 256 ^ k := by
      rw [Nat.div_lt_iff_lt_mul (by decide), ← pow_succ]
      exact h
    rw [toBytes, ofBytes_concat, ih hhigh, UInt8.toNat_ofNat', Nat.mod_mod_of_dvd n (by decide)]
    omega

theorem ofBytes_dropZeros (bytes : List UInt8) : ofBytes (dropZeros bytes) = ofBytes bytes := by
  induction bytes with
  | nil => rfl
  | cons b bytes ih =>
    by_cases hb : b = 0
    · subst hb
      simpa [dropZeros, ofBytes] using ih
    · simp [dropZeros, hb]

theorem length_dropZeros_le (bytes : List UInt8) : (dropZeros bytes).length ≤ bytes.length :=
  (List.dropWhile_sublist _).length_le

/-- What is left does not start with a zero byte. -/
theorem head_dropZeros {bytes rest : List UInt8} {b : UInt8} (h : dropZeros bytes = b :: rest) :
    b ≠ 0 := by
  induction bytes with
  | nil => simp [dropZeros] at h
  | cons c bytes ih =>
    by_cases hc : c = 0
    · exact ih (by simpa [dropZeros, hc] using h)
    · obtain ⟨rfl, -⟩ : c = b ∧ bytes = rest := by simpa [dropZeros, hc] using h
      exact hc

end BigEndian
