import Mathlib.Data.List.Basic
import Mathlib.Tactic

/-!
# Byte strings

Byte strings as lists, the little-endian encoding of natural numbers, half-open slices and
in-place patches.

* `leBytes k n` writes the `k` low-order bytes of `n`, least significant first, and `leNat` reads
  a byte string back: `leNat_leBytes` says that the value survives modulo `256 ^ k`;
* `slice b i j` is the checked slice `b[i..j]`;
* `patch b off v` overwrites the bytes of `b` from `off` on with `v`.
-/

namespace ByteString

/-- A byte string. -/
abbrev Bytes := List UInt8

/-- The `k` low-order bytes of `n`, least significant first. -/
def leBytes : ℕ → ℕ → Bytes
  | 0, _ => []
  | k + 1, n => UInt8.ofNat n :: leBytes k (n / 256)

/-- The value of a little-endian byte string. -/
def leNat : Bytes → ℕ
  | [] => 0
  | b :: bs => b.toNat + 256 * leNat bs

@[simp] theorem leBytes_length (k n : ℕ) : (leBytes k n).length = k := by
  induction k generalizing n with
  | zero => rfl
  | succ k ih => simp [leBytes, ih]

/-- Reading back what was written gives the value modulo `256 ^ k`. -/
theorem leNat_lt (b : Bytes) : leNat b < 256 ^ b.length := by
  induction b with
  | nil => exact Nat.one_pos
  | cons x b ih =>
    have hx := x.toNat_lt
    rw [leNat, List.length_cons, Nat.pow_succ]
    omega

theorem leNat_leBytes (k n : ℕ) : leNat (leBytes k n) = n % 256 ^ k := by
  induction k generalizing n with
  | zero => simp [leBytes, leNat, Nat.mod_one]
  | succ k ih =>
    have h8 : (UInt8.ofNat n).toNat = n % 256 := by simp
    rw [leBytes, leNat, ih, h8, pow_succ', Nat.mod_mul]

/-- Only the value modulo `256 ^ k` is written. -/
theorem leBytes_mod (k n : ℕ) : leBytes k (n % 256 ^ k) = leBytes k n := by
  induction k generalizing n with
  | zero => rfl
  | succ k ih =>
    have hhead : UInt8.ofNat (n % 256 ^ (k + 1)) = UInt8.ofNat n := by
      apply UInt8.toNat_inj.1
      rw [UInt8.toNat_ofNat', UInt8.toNat_ofNat']
      exact Nat.mod_mod_of_dvd n (dvd_pow_self 256 k.succ_ne_zero)
    have htail : n % 256 ^ (k + 1) / 256 = n / 256 % 256 ^ k := by
      rw [pow_succ', Nat.mod_mul_right_div_self]
    rw [leBytes, leBytes, hhead, htail, ih]

/-- Writing what was read gives the bytes back. -/
theorem leBytes_leNat (b : Bytes) : leBytes b.length (leNat b) = b := by
  induction b with
  | nil => rfl
  | cons x b ih =>
    have hx := x.toNat_lt
    have hhead : UInt8.ofNat (x.toNat + 256 * leNat b) = x := by
      apply UInt8.toNat_inj.1
      rw [UInt8.toNat_ofNat']
      omega
    have htail : (x.toNat + 256 * leNat b) / 256 = leNat b := by omega
    rw [List.length_cons, leNat, leBytes, hhead, htail, ih]

/-- `n` zero bytes. -/
def zeros (n : ℕ) : Bytes := List.replicate n 0

@[simp] theorem zeros_length (n : ℕ) : (zeros n).length = n := by simp [zeros]

/-- The checked slice `b[i..j]`: `none` unless `i ≤ j ≤ b.length`. -/
def slice (b : Bytes) (i j : ℕ) : Option Bytes :=
  if i ≤ j ∧ j ≤ b.length then some ((b.take j).drop i) else none

/-- Overwrite the bytes of `b` from position `off` on with `v`. -/
def patch (b : Bytes) (off : ℕ) (v : Bytes) : Bytes :=
  b.take off ++ v ++ b.drop (off + v.length)

theorem patch_length {b v : Bytes} {off : ℕ} (h : off + v.length ≤ b.length) :
    (patch b off v).length = b.length := by
  simp only [patch, List.length_append, List.length_take, List.length_drop]
  omega

/-! ### Patches and slices of a part -/

section Parts

variable (pre b post v : Bytes) (off i j : ℕ)

theorem patch_append_right : patch (pre ++ b) (pre.length + off) v = pre ++ patch b off v := by
  simp [patch, List.take_length_add_append, Nat.add_assoc, List.drop_length_add_append]

theorem patch_append_left (h : off + v.length ≤ b.length) :
    patch (b ++ post) off v = patch b off v ++ post := by
  have hoff : off ≤ b.length := by omega
  simp [patch, List.take_append_of_le_length hoff, List.drop_append_of_le_length h]

/-- A patch of a whole part puts the new part in its place. -/
theorem patch_part (h : v.length = b.length) :
    patch (pre ++ b ++ post) pre.length v = pre ++ v ++ post := by
  have hzero := patch_append_right pre (b ++ post) v 0
  rw [Nat.add_zero] at hzero
  rw [List.append_assoc, hzero, List.append_assoc]
  simp [patch, h]

/-- A patch with what is there changes nothing. -/
theorem patch_patch (h : off + v.length ≤ b.length) :
    patch (patch b off v) off v = patch b off v := by
  have htake : (b.take off).length = off := by
    rw [List.length_take]
    omega
  have hpart := patch_part (b.take off) v (b.drop (off + v.length)) v rfl
  rwa [htake] at hpart

theorem extract_append_right :
    (pre ++ b).extract (pre.length + i) (pre.length + j) = b.extract i j := by
  rw [List.extract_eq_take_drop, List.extract_eq_take_drop, List.drop_length_add_append,
    Nat.add_sub_add_left]

theorem extract_append_left (h : j ≤ b.length) : (b ++ post).extract i j = b.extract i j := by
  rw [List.extract_eq_drop_take', List.extract_eq_drop_take', List.take_append_of_le_length h]

/-- A slice before a patch. -/
theorem extract_patch_before (h : off ≤ b.length) (hj : j ≤ off) :
    (patch b off v).extract i j = b.extract i j := by
  have hj' : j ≤ (b.take off).length := by
    rw [List.length_take]
    omega
  rw [patch, List.append_assoc, extract_append_left _ _ _ _ hj', List.extract_eq_drop_take',
    List.extract_eq_drop_take', List.take_take, Nat.min_eq_left hj]

/-- What lies behind a patch. -/
theorem drop_patch (h : off + v.length ≤ b.length) (hi : off + v.length ≤ i) :
    (patch b off v).drop i = b.drop i := by
  obtain ⟨d, rfl⟩ := Nat.exists_eq_add_of_le hi
  have hlen : (b.take off ++ v).length = off + v.length := by
    rw [List.length_append, List.length_take]
    omega
  rw [patch, ← hlen, List.drop_length_add_append, List.drop_drop, hlen]

/-- A slice behind a patch. -/
theorem extract_patch_after (h : off + v.length ≤ b.length) (hi : off + v.length ≤ i) :
    (patch b off v).extract i j = b.extract i j := by
  rw [List.extract_eq_take_drop, List.extract_eq_take_drop, drop_patch b v off i h hi]

/-- A slice behind a part. -/
theorem slice_append_right : slice (pre ++ b) (pre.length + i) (pre.length + j) = slice b i j := by
  unfold slice
  simp only [List.length_append, Nat.add_le_add_iff_left, List.take_length_add_append,
    List.drop_length_add_append]

/-- The slice that is a whole part. -/
theorem extract_part :
    (pre ++ b ++ post).extract pre.length (pre.length + b.length) = b := by
  rw [List.append_assoc, List.extract_eq_take_drop, List.drop_left, Nat.add_sub_cancel_left,
    List.take_left]

end Parts

/-! ### Checked slices -/

theorem slice_append_left {r x : Bytes} {i j : ℕ} (h : slice r i j = some x) (rest : Bytes) :
    slice (r ++ rest) i j = some x := by
  unfold slice at h ⊢
  split_ifs at h with hij
  have hle : j ≤ (r ++ rest).length := by
    rw [List.length_append]
    omega
  rw [if_pos ⟨hij.1, hle⟩, List.take_append_of_le_length hij.2]
  exact h

/-- The slice that is a whole part. -/
theorem slice_part {b a x c : Bytes} {i j : ℕ} (h : b = a ++ x ++ c) (hi : a.length = i)
    (hj : i + x.length = j) : slice b i j = some x := by
  subst h hi hj
  have hlen : a.length + x.length ≤ (a ++ x ++ c).length := by
    simp only [List.length_append]
    omega
  rw [slice, if_pos ⟨Nat.le_add_right _ _, hlen⟩, ← List.length_append, List.take_left,
    List.drop_left]

theorem slice_length {r x : Bytes} {i j : ℕ} (h : slice r i j = some x) : x.length = j - i := by
  unfold slice at h
  split_ifs at h with hij
  obtain rfl := Option.some.inj h
  rw [List.length_drop, List.length_take]
  omega

end ByteString
