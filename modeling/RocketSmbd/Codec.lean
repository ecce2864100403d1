import RocketSmbd.Wire

/-!
# Readers read what writers wrote (`wire.rs`)

Each reader of `Rdr` takes what the writer of the same width put there and leaves the rest, and
`from_utf16le` reads back what `utf16le` wrote, for every string.
-/

namespace RocketSmbd

open ByteString

/-! ### Numbers -/

namespace Rdr

variable {α β : Type}

theorem bind_run {p : Rdr α} {k : α → Rdr β} {b r : Bytes} {a : α} (h : p b = some (a, r)) :
    (p >>= k) b = k a r := by
  change (p b).bind (fun x => k x.1 x.2) = k a r
  rw [h]
  rfl

theorem take_append (a b : Bytes) : take a.length (a ++ b) = some (a, b) := by
  have hlen : a.length ≤ (a ++ b).length := by
    rw [List.length_append]
    omega
  rw [take, if_pos hlen, List.take_left, List.drop_left]

theorem skip_append {n : ℕ} {a : Bytes} (h : a.length = n) (b : Bytes) :
    skip n (a ++ b) = some ((), b) := by
  subst h
  exact bind_run (take_append a b)

theorem u32_p32 (v : UInt32) (b : Bytes) : u32 (p32 v ++ b) = some (v, b) := by
  have h := bind_run (k := fun s => (pure (UInt32.ofNat (leNat s)) : Rdr UInt32))
    (take_append (p32 v) b)
  rw [ofNat_leNat_p32] at h
  exact h

theorem u64_p64 (v : UInt64) (b : Bytes) : u64 (p64 v ++ b) = some (v, b) := by
  have hv : v.toNat < 256 ^ 8 := v.toNat_lt
  have h := bind_run (k := fun s => (pure (UInt64.ofNat (leNat s)) : Rdr UInt64))
    (take_append (p64 v) b)
  rw [p64, leNat_leBytes, Nat.mod_eq_of_lt hv, UInt64.ofNat_toNat] at h
  exact h

end Rdr

/-! ### Text -/

theorem chunks16_p16 (u : UInt16) (rest : Bytes) :
    chunks16 (p16 u ++ rest) = u :: chunks16 rest := by
  have hlow : (UInt8.ofNat u.toNat).toNat = u.toNat % 256 := by simp
  have hhigh : (UInt8.ofNat (u.toNat / 256)).toNat = u.toNat / 256 := by
    have := u.toNat_lt
    rw [UInt8.toNat_ofNat']
    omega
  change UInt16.ofNat _ :: chunks16 rest = _
  rw [hlow, hhigh, Nat.mod_add_div, UInt16.ofNat_toNat]

theorem chunks16_flatMap (us : List UInt16) : chunks16 (us.flatMap p16) = us := by
  induction us with
  | nil => rfl
  | cons u us ih => rw [List.flatMap_cons, chunks16_p16, ih]

/-- The code units of a scalar value are read back as that value, whatever follows. -/
theorem fromUtf16Lossy_units (c : Char) (us : List UInt16) :
    fromUtf16Lossy (utf16Units c ++ us) = c :: fromUtf16Lossy us := by
  have hc : c.toNat < 0xD800 ∨ 0xDFFF < c.toNat ∧ c.toNat < 0x110000 := c.valid
  unfold utf16Units
  by_cases hsmall : c.toNat < 0x10000
  · have hu : (UInt16.ofNat c.toNat).toNat = c.toNat := UInt16.toNat_ofNat_of_lt hsmall
    rw [if_pos hsmall, List.singleton_append, fromUtf16Lossy.eq_def]
    dsimp only
    rw [hu, if_pos (by omega), Char.ofNat_toNat]
  · -- a surrogate pair carries the ten high and the ten low bits of what exceeds `0x10000`
    have hhigh : (UInt16.ofNat (0xD800 + (c.toNat - 0x10000) / 0x400)).toNat =
        0xD800 + (c.toNat - 0x10000) / 0x400 := UInt16.toNat_ofNat_of_lt (show _ < 65536 by omega)
    have hlow : (UInt16.ofNat (0xDC00 + (c.toNat - 0x10000) % 0x400)).toNat =
        0xDC00 + (c.toNat - 0x10000) % 0x400 := UInt16.toNat_ofNat_of_lt (show _ < 65536 by omega)
    have hval : 0x10000 + (0xD800 + (c.toNat - 0x10000) / 0x400 - 0xD800) * 0x400 +
        (0xDC00 + (c.toNat - 0x10000) % 0x400 - 0xDC00) = c.toNat := by omega
    rw [if_neg hsmall, List.cons_append, List.singleton_append, fromUtf16Lossy.eq_def]
    dsimp only
    rw [hhigh, if_neg (by omega), hlow, if_pos (by omega), hval, Char.ofNat_toNat]

/-- **Text survives UTF-16LE.** -/
theorem fromUtf16le_utf16le (s : Str) : fromUtf16le (utf16le s) = s := by
  rw [fromUtf16le, utf16le, chunks16_flatMap]
  induction s with
  | nil => rfl
  | cons c s ih => rw [List.flatMap_cons, fromUtf16Lossy_units, ih]

example : utf16le (lit "é😀") = [0xE9, 0, 0x3D, 0xD8, 0x00, 0xDE] := by decide +kernel

/-- Well-formed UTF-16: every surrogate belongs to a pair, the high one first. -/
inductive WellFormed16 : List UInt16 → Prop
  | nil : WellFormed16 []
  | unit {u : UInt16} {us : List UInt16} (hu : u.toNat < 0xD800 ∨ 0xDFFF < u.toNat)
      (hus : WellFormed16 us) : WellFormed16 (u :: us)
  | pair {u v : UInt16} {us : List UInt16} (hu : 0xD800 ≤ u.toNat ∧ u.toNat < 0xDC00)
      (hv : 0xDC00 ≤ v.toNat ∧ v.toNat ≤ 0xDFFF) (hus : WellFormed16 us) :
      WellFormed16 (u :: v :: us)

theorem toNat_ofNat_of_isValidChar {n : ℕ} (h : Nat.isValidChar n) : (Char.ofNat n).toNat = n := by
  rw [Char.ofNat, dif_pos h]
  rfl

/-- The scalar value of a unit that is no surrogate is written as that unit. -/
theorem utf16Units_ofNat {u : UInt16} (hu : u.toNat < 0xD800 ∨ 0xDFFF < u.toNat) :
    utf16Units (Char.ofNat u.toNat) = [u] := by
  have hlt := u.toNat_lt
  have hvalid : Nat.isValidChar u.toNat := by
    unfold Nat.isValidChar
    omega
  rw [utf16Units, toNat_ofNat_of_isValidChar hvalid, if_pos hlt, UInt16.ofNat_toNat]

/-- The scalar value of a surrogate pair is written as that pair. -/
theorem utf16Units_pair {u v : UInt16} (hu : 0xD800 ≤ u.toNat ∧ u.toNat < 0xDC00)
    (hv : 0xDC00 ≤ v.toNat ∧ v.toNat ≤ 0xDFFF) :
    utf16Units (Char.ofNat (0x10000 + (u.toNat - 0xD800) * 0x400 + (v.toNat - 0xDC00))) =
      [u, v] := by
  have hvalid : Nat.isValidChar
      (0x10000 + (u.toNat - 0xD800) * 0x400 + (v.toNat - 0xDC00)) := by
    unfold Nat.isValidChar
    omega
  have hhigh : 0xD800 + (0x10000 + (u.toNat - 0xD800) * 0x400 + (v.toNat - 0xDC00) - 0x10000) /
      0x400 = u.toNat := by omega
  have hlow : 0xDC00 + (0x10000 + (u.toNat - 0xD800) * 0x400 + (v.toNat - 0xDC00) - 0x10000) %
      0x400 = v.toNat := by omega
  rw [utf16Units, toNat_ofNat_of_isValidChar hvalid, if_neg (by omega)]
  dsimp only
  rw [hhigh, hlow, UInt16.ofNat_toNat, UInt16.ofNat_toNat]

/-- Well-formed code units are written as they were read. -/
theorem units_fromUtf16Lossy {us : List UInt16} (h : WellFormed16 us) :
    (fromUtf16Lossy us).flatMap utf16Units = us := by
  induction h with
  | nil => rfl
  | unit hu _ ih =>
    rw [fromUtf16Lossy.eq_def]
    dsimp only
    rw [if_pos hu, List.flatMap_cons, utf16Units_ofNat hu, ih]
    rfl
  | pair hu hv _ ih =>
    rw [fromUtf16Lossy.eq_def]
    dsimp only
    rw [if_neg (by omega), if_pos ⟨hu.2, hv⟩, List.flatMap_cons, utf16Units_pair hu hv, ih]
    rfl

/-- A byte string of even length is the bytes of its 16-bit words. -/
theorem flatMap_chunks16 : ∀ {b : Bytes}, b.length % 2 = 0 → (chunks16 b).flatMap p16 = b
  | [], _ => rfl
  | [_], h => by simp at h
  | x :: y :: rest, h => by
    have hrest : rest.length % 2 = 0 := by
      rw [List.length_cons, List.length_cons] at h
      omega
    have hword : p16 (UInt16.ofNat (x.toNat + 256 * y.toNat)) = [x, y] := by
      rw [p16_ofNat]
      exact leBytes_leNat [x, y]
    rw [chunks16, List.flatMap_cons, hword, flatMap_chunks16 hrest]
    rfl

/-- **UTF-16LE round trips.**  Every string is read back from its UTF-16LE form, and every even
number of bytes whose code units are well formed is written back from the string read from it. -/
theorem utf16le_roundTrips :
    (∀ s : Str, fromUtf16le (utf16le s) = s) ∧
      ∀ b : Bytes, b.length % 2 = 0 → WellFormed16 (chunks16 b) →
        utf16le (fromUtf16le b) = b := by
  refine ⟨fromUtf16le_utf16le, fun b heven hwell => ?_⟩
  rw [utf16le, fromUtf16le, units_fromUtf16Lossy hwell, flatMap_chunks16 heven]

/-- A surrogate pair after a letter comes back byte for byte. -/
theorem utf16le_roundTrips_pair :
    utf16le (fromUtf16le [0x61, 0, 0x3D, 0xD8, 0x00, 0xDE]) = [0x61, 0, 0x3D, 0xD8, 0x00, 0xDE] :=
  utf16le_roundTrips.2 _ rfl (.unit (by decide) (.pair (by decide) (by decide) .nil))

end RocketSmbd
