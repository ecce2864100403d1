import RocketSmbd.Smb2.SetInfo

/-!
# Timestamps of FileBasicInformation

A client sets the times of a file as 64-bit FILETIMEs, which `set_basic_info` turns into timespecs
and `vfs::filetime` turns back when the times are read.  The first conversion goes through `i64`:
a value of `2 ^ 63` or more becomes negative there, and what lies that far before 1601 either
overflows the subtraction of the epoch or is a time for which `filetime` returns zero.
-/

namespace RocketSmbd

open Vfs
variable {v : UInt64}

/-- `v as i64`. -/
def asI64 (v : UInt64) : ℤ := Int.bmod v.toNat (2 ^ 64)

/-- The integers that an `i64` holds. -/
def FitsI64 (n : ℤ) : Prop := -2 ^ 63 ≤ n ∧ n < 2 ^ 63

instance (n : ℤ) : Decidable (FitsI64 n) := inferInstanceAs (Decidable (_ ∧ _))

/-- 1601 to 1970 in ticks of 100 ns. -/
def epochDeltaTicks : ℤ := 116444736000000000

/-- The timespec keeps the FILETIME `v`: it leaves the time as it is, or was computed without
overflow, has its nanoseconds in range, and `filetime` computes `v` back from it without
overflow. -/
def KeepsTime (v : UInt64) : Option (ℤ × ℤ) → Prop
  | none => True
  | some (sec, nsec) =>
    FitsI64 (asI64 v - epochDeltaTicks) ∧ 0 ≤ nsec ∧ nsec < 1000000000 ∧
      FitsI64 (sec + epochDeltaSecs) ∧
      (sec + epochDeltaSecs).toNat * 10000000 + nsec.toNat / 100 < 2 ^ 64 ∧
      filetime sec nsec = v

instance (v : UInt64) : ∀ t, Decidable (KeepsTime v t)
  | none => .isTrue trivial
  | some _ => inferInstanceAs (Decidable (_ ∧ _ ∧ _ ∧ _ ∧ _ ∧ _))

/-- What is demanded of a FILETIME that a client sends. -/
def RoundTrips (v : UInt64) : Prop := KeepsTime v (ts v)

instance (v : UInt64) : Decidable (RoundTrips v) := inferInstanceAs (Decidable (KeepsTime v (ts v)))

theorem asI64_eq (v : UInt64) :
    asI64 v = if v.toNat < 2 ^ 63 then (v.toNat : ℤ) else v.toNat - 2 ^ 64 := by
  have hlt := v.toNat_lt
  unfold asI64 Int.bmod
  norm_num
  split_ifs <;> omega

/-- An `i64` that does not overflow is not wrapped. -/
theorem bmod_of_fits {n : ℤ} (h : FitsI64 n) : Int.bmod n (2 ^ 64) = n := by
  obtain ⟨hlo, hhi⟩ := h
  unfold Int.bmod
  norm_num at hlo hhi ⊢
  split_ifs <;> omega

/-- The ticks since 1970, in the arithmetic of `i64`. -/
def unix100 (v : UInt64) : ℤ := Int.bmod (asI64 v - epochDeltaTicks) (2 ^ 64)

theorem ts_eq (h0 : v ≠ 0) (hmax : v ≠ 0xFFFFFFFFFFFFFFFF) :
    ts v = some (unix100 v / 10000000, unix100 v % 10000000 * 100) :=
  if_neg (by simp [h0, hmax])

/-- Below `2 ^ 63` nothing overflows: the ticks are those of the FILETIME, counted from 1970. -/
theorem unix100_of_lt (h : v.toNat < 2 ^ 63) :
    FitsI64 (asI64 v - epochDeltaTicks) ∧ unix100 v = v.toNat - epochDeltaTicks := by
  have hval : asI64 v = v.toNat := by rw [asI64_eq, if_pos h]
  have hfits : FitsI64 (asI64 v - epochDeltaTicks) := by
    rw [hval]
    unfold FitsI64 epochDeltaTicks
    omega
  exact ⟨hfits, by rw [unix100, bmod_of_fits hfits, hval]⟩

/-- The epochs are a whole number of seconds apart, so a tick count splits at the second alike
from either. -/
theorem split_ticks (n : ℤ) :
    (n - epochDeltaTicks) / 10000000 = n / 10000000 - epochDeltaSecs ∧
      (n - epochDeltaTicks) % 10000000 = n % 10000000 := by
  unfold epochDeltaTicks epochDeltaSecs
  omega

/-- `filetime` puts a split tick count together again. -/
theorem filetime_split (v : UInt64) :
    filetime ((v.toNat : ℤ) / 10000000 - epochDeltaSecs) ((v.toNat : ℤ) % 10000000 * 100) = v := by
  have hlt := v.toNat_lt
  have hsec : ((v.toNat : ℤ) / 10000000 - epochDeltaSecs + epochDeltaSecs).toNat
      = v.toNat / 10000000 := by omega
  have hnsec : ((v.toNat : ℤ) % 10000000 * 100).toNat = v.toNat % 10000000 * 100 := by omega
  have hticks : (10000000 : UInt64).toNat = 10000000 := rfl
  have hnanos : (100 : UInt64).toNat = 100 := rfl
  unfold filetime
  rw [if_neg (by omega), hsec, hnsec]
  apply UInt64.toNat_inj.1
  simp only [UInt64.toNat_add, UInt64.toNat_mul, UInt64.toNat_div, UInt64.toNat_ofNat', hticks,
    hnanos]
  rw [Nat.mod_eq_of_lt (by omega : v.toNat / 10000000 < 2 ^ 64),
    Nat.mod_eq_of_lt (by omega : v.toNat / 10000000 * 10000000 < 2 ^ 64),
    Nat.mod_eq_of_lt (by omega : v.toNat % 10000000 * 100 < 2 ^ 64),
    Nat.mul_div_cancel _ (by omega),
    Nat.div_add_mod', Nat.mod_eq_of_lt hlt]

theorem roundTrips_of_lt (h : v.toNat < 2 ^ 63) : RoundTrips v := by
  by_cases h0 : v = 0
  · subst h0
    exact trivial
  · have hmax : v ≠ 0xFFFFFFFFFFFFFFFF := by
      rintro rfl
      exact absurd h (by decide)
    obtain ⟨hfits, hticks⟩ := unix100_of_lt h
    obtain ⟨hsec, hnsec⟩ := split_ticks v.toNat
    unfold RoundTrips
    rw [ts_eq h0 hmax, hticks, hsec, hnsec]
    refine ⟨hfits, by omega, by omega, ?_, by omega, filetime_split v⟩
    unfold FitsI64
    omega

/-- From `2 ^ 63` on, a difference that does not overflow lies before 1601. -/
theorem unix100_of_le (h : 2 ^ 63 ≤ v.toNat) (hfits : FitsI64 (asI64 v - epochDeltaTicks)) :
    unix100 v / 10000000 < -epochDeltaSecs := by
  have hlt := v.toNat_lt
  have hneg : asI64 v < 0 := by
    rw [asI64_eq, if_neg (by omega)]
    omega
  rw [unix100, bmod_of_fits hfits]
  unfold epochDeltaTicks epochDeltaSecs
  omega

/-- **Timestamps round-trip below `2 ^ 63`, and only there.**  Of all 64-bit FILETIMEs, those that
become a timespec without overflow and are read back as they were sent, or leave the time
unchanged, are the values that an `i64` holds and the reserved value of all ones. -/
theorem roundTrips_iff (v : UInt64) :
    RoundTrips v ↔ v.toNat < 2 ^ 63 ∨ v = 0xFFFFFFFFFFFFFFFF := by
  constructor
  · intro h
    by_contra hv
    obtain ⟨hge, hmax⟩ := not_or.1 hv
    have hge : 2 ^ 63 ≤ v.toNat := not_lt.1 hge
    have h0 : v ≠ 0 := by
      rintro rfl
      exact absurd hge (by decide)
    unfold RoundTrips at h
    rw [ts_eq h0 hmax] at h
    obtain ⟨hfits, -, -, -, -, hback⟩ := h
    -- `filetime` gives zero for every time before 1601
    have hzero : filetime (unix100 v / 10000000) (unix100 v % 10000000 * 100) = 0 :=
      if_pos (unix100_of_le hge hfits)
    exact h0 (hback.symm.trans hzero)
  · rintro (h | rfl)
    · exact roundTrips_of_lt h
    · exact trivial

/-- The least FILETIME that overflows the subtraction, and one from which the client reads zero
back. -/
theorem not_roundTrips :
    ¬ RoundTrips 0x8000000000000000 ∧
      ¬ FitsI64 (asI64 0x8000000000000000 - epochDeltaTicks) ∧
      ¬ RoundTrips 0xFFFFFFFFFFFFFFFE ∧
      ts 0xFFFFFFFFFFFFFFFE = some (-11644473601, 999999800) ∧
      filetime (-11644473601) 999999800 = 0 := by
  decide

end RocketSmbd
