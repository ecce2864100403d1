import RocketSmbd.Pac

/-!
# A PAC is decided by what is read of it (`pac.rs`)

Every reader of the decoder is steady: it sees the bytes up to the position it stops at and no
others, it fails on what is shorter, and its indices are in range.
-/

namespace RocketSmbd

open ByteString

namespace Pac

open Cursor

/-- Steady, with the index out of range as the failure that does not happen. -/
abbrev Sees {α : Type} (p : Rd α) : Prop := Steady Err.indexPanic p

namespace Rd

theorem sees_take (n : ℕ) : Sees (take n) := steady_take (by decide) n

theorem sees_skip (n : ℕ) : Sees (skip n) := (sees_take n).bind fun _ => steady_pure _

theorem sees_align (a : ℕ) : Sees (align a) := steady_get.bind fun _ => sees_skip _

/-- The bytes that were taken are as many as are accessed. -/
theorem indexed_eq (n : ℕ) : indexed n = take n := by
  funext b i
  rw [indexed, bind_run, take, Cursor.take, slice]
  split_ifs with h
  · have hlen : ¬ ((b.take (i + n)).drop i).length < n := by
      rw [List.length_drop, List.length_take]
      omega
    dsimp only
    rw [if_neg hlen]
    rfl
  · rfl

theorem sees_indexed (n : ℕ) : Sees (indexed n) := indexed_eq n ▸ sees_take n

theorem sees_u8 : Sees u8 := (sees_indexed 1).bind fun _ => steady_pure _

theorem sees_u16 : Sees u16 :=
  (sees_align 2).bind fun _ => (sees_indexed 2).bind fun _ => steady_pure _

theorem sees_u32 : Sees u32 :=
  (sees_align 4).bind fun _ => (sees_indexed 4).bind fun _ => steady_pure _

theorem sees_u64 : Sees u64 := sees_u32.bind fun _ => sees_u32.bind fun _ => steady_pure _

theorem sees_pointer : Sees pointer := sees_u32.bind fun _ => steady_pure _

theorem sees_ustrHdr : Sees ustrHdr :=
  sees_u16.bind fun _ => sees_u16.bind fun _ => sees_pointer.bind fun _ => steady_pure _

theorem sees_ustrBody (h : UStr) : Sees (ustrBody h) :=
  .ite (steady_pure _) <| sees_u32.bind fun _ => sees_u32.bind fun _ => sees_u32.bind fun _ =>
    .ite (steady_throw (by decide)) <| (sees_take _).bind fun _ => steady_pure _

theorem sees_sid : Sees sid :=
  sees_u32.bind fun _ => sees_u8.bind fun _ => sees_u8.bind fun _ =>
    .ite (steady_throw (by decide)) <| (sees_take 6).bind fun _ =>
      (sees_u32.many _).bind fun _ => steady_pure _

theorem sees_withAttributes {α : Type} {p : Rd α} (hp : Sees p) : Sees (withAttributes p) :=
  hp.bind fun _ => sees_u32.bind fun _ => steady_pure _

theorem sees_rids : Sees rids :=
  sees_u32.bind fun _ => .ite (steady_throw (by decide)) ((sees_withAttributes sees_u32).many _)

theorem sees_sids (ps : List Bool) : Sees (sids ps) := by
  induction ps with
  | nil => exact steady_pure _
  | cons p ps ih =>
    cases p with
    | false => exact ih
    | true => exact sees_sid.bind fun _ => ih.bind fun _ => steady_pure _

theorem sees_extraSids : Sees extraSids :=
  sees_u32.bind fun _ => .ite (steady_throw (by decide)) <|
    ((sees_withAttributes sees_pointer).many _).bind fun _ => sees_sids _

theorem sees_deferred {α : Type} (present : Bool) {p : Rd α} (hp : Sees p) :
    Sees (deferred present p) :=
  .ite (hp.bind fun _ => steady_pure _) (steady_pure _)

end Rd

open Rd

theorem sees_ndrHeader : Sees ndrHeader :=
  sees_u8.bind fun _ => sees_u8.bind fun _ => sees_u16.bind fun _ =>
    .ite (steady_throw (by simp)) <| sees_u32.bind fun _ => sees_u32.bind fun _ =>
      sees_u32.bind fun _ => sees_u32.bind fun _ => .ite (steady_throw (by decide)) (steady_pure _)

theorem sees_fixedPart : Sees fixedPart :=
  (sees_skip _).bind fun _ => sees_ustrHdr.bind fun _ => (sees_ustrHdr.many _).bind fun _ =>
    sees_u16.bind fun _ => sees_u16.bind fun _ => sees_u32.bind fun _ => sees_u32.bind fun _ =>
    sees_u32.bind fun _ => sees_pointer.bind fun _ => sees_u32.bind fun _ =>
    (sees_skip _).bind fun _ => sees_ustrHdr.bind fun _ => sees_ustrHdr.bind fun _ =>
    sees_pointer.bind fun _ => (sees_skip _).bind fun _ => sees_u32.bind fun _ =>
    sees_u32.bind fun _ => (sees_skip _).bind fun _ => sees_u32.bind fun _ => sees_u32.bind fun _ =>
    sees_u32.bind fun _ => sees_pointer.bind fun _ => sees_pointer.bind fun _ =>
    sees_u32.bind fun _ => sees_pointer.bind fun _ => steady_pure _

theorem sees_skipStrs (hs : List UStr) : Sees (skipStrs hs) := by
  induction hs with
  | nil => exact steady_pure _
  | cons h hs ih => exact (sees_ustrBody h).bind fun _ => ih

theorem sees_referents (f : Fixed) : Sees (referents f) :=
  (sees_ustrBody _).bind fun _ => (sees_skipStrs _).bind fun _ =>
    (sees_deferred _ sees_rids).bind fun _ => (sees_ustrBody _).bind fun _ =>
    (sees_ustrBody _).bind fun _ => (sees_deferred _ sees_sid).bind fun _ =>
    (sees_deferred _ sees_extraSids).bind fun _ => (sees_deferred _ sees_sid).bind fun _ =>
    (sees_deferred _ sees_rids).bind fun _ => steady_pure _

/-- **The decoder of a LOGON_INFO buffer is steady.** -/
theorem sees_logonInfo : Sees logonInfo :=
  sees_ndrHeader.bind fun _ => sees_fixedPart.bind fun f => (sees_referents f).bind fun _ =>
    steady_pure _

theorem sees_logonBuffer (n : ℕ) : Sees (logonBuffer n) := by
  induction n with
  | zero => exact steady_throw (by decide)
  | succ n ih =>
    exact sees_u32.bind fun _ => sees_u32.bind fun _ => sees_u64.bind fun _ =>
      .ite (steady_pure _) ih

theorem sees_directory : Sees directory :=
  sees_u32.bind fun _ => sees_u32.bind fun _ => .ite (steady_throw (by simp)) (sees_logonBuffer _)

/-! ### Whole buffers -/

theorem map_fst_eq_ok {r : Except Err (LogonInfo × ℕ)} {v : LogonInfo} :
    r.map Prod.fst = .ok v ↔ ∃ k, r = .ok (v, k) := by
  cases r with
  | error err => simp [Except.map]
  | ok x =>
    obtain ⟨w, k⟩ := x
    simp [Except.map]

theorem parseLogonInfo_ne_panic (b : Bytes) : parseLogonInfo b ≠ .error .indexPanic := by
  intro h
  rw [parseLogonInfo] at h
  cases hr : logonInfo b 0 with
  | error err =>
    rw [hr] at h
    exact sees_logonInfo.sound (Nat.zero_le _) (hr.trans (congrArg _ (Except.error.inj h)))
  | ok x => simp [hr, Except.map] at h

/-- What is done with the buffer that the directory names. -/
theorem parsePac_of_directory {pac : Bytes} {size off j : ℕ}
    (h : directory pac 0 = .ok ((size, off), j)) :
    parsePac pac = if 2 ^ 64 ≤ off + size then .error .lengthOverflow
      else match slice pac off (off + size) with
        | none => .error .outOfBounds
        | some buf => parseLogonInfo buf := by
  rw [parsePac, h]
  rfl

theorem parsePac_of_error {pac : Bytes} {err : Err} (h : directory pac 0 = .error err) :
    parsePac pac = .error err := by
  rw [parsePac, h]
  rfl

/-- **PAC decoding is decided by what it consumes.**  When a LOGON_INFO buffer is decoded from its
first `k` bytes, every buffer that starts with them gives the same value and no proper prefix of
them gives one; no truncation of an accepted PAC that cuts into its LOGON_INFO buffer is accepted;
and no index is out of range, whatever the bytes are. -/
theorem pac_decided_by_consumed :
    (∀ (b : Bytes) (v : LogonInfo) (k : ℕ), logonInfo b 0 = .ok (v, k) → k ≤ b.length ∧
      (∀ c, b.take k <+: c → parseLogonInfo c = .ok v) ∧
        ∀ n < k, ∃ err, parseLogonInfo (b.take n) = .error err) ∧
    (∀ (pac : Bytes) (v : LogonInfo), parsePac pac = .ok v →
      ∃ size off j, directory pac 0 = .ok ((size, off), j) ∧ off + size ≤ pac.length ∧
        ∀ n < off + size, ∃ err, parsePac (pac.take n) = .error err) ∧
    ∀ b : Bytes, parseLogonInfo b ≠ .error .indexPanic ∧ parsePac b ≠ .error .indexPanic := by
  refine ⟨fun b v k h => ?_, fun pac v h => ?_, fun b => ⟨parseLogonInfo_ne_panic b, fun h => ?_⟩⟩
  · have hk := sees_logonInfo.bounds (Nat.zero_le _) h
    refine ⟨hk.2, fun c hc => ?_, fun n hn => ?_⟩
    · exact map_fst_eq_ok.2 ⟨k, sees_logonInfo.stable (Nat.zero_le _) h hc⟩
    · have hlen : (b.take n).length < k := by
        rw [List.length_take]
        omega
      obtain ⟨err, herr⟩ := sees_logonInfo.cut h (List.take_prefix n b) (Nat.zero_le _) hlen
      exact ⟨err, by rw [parseLogonInfo, herr]; rfl⟩
  · cases hd : directory pac 0 with
    | error err =>
      rw [parsePac_of_error hd] at h
      exact absurd h (by simp)
    | ok x =>
      obtain ⟨⟨size, off⟩, j⟩ := x
      rw [parsePac_of_directory hd] at h
      split_ifs at h with hlarge
      have hle : off + size ≤ pac.length := by
        by_contra hnot
        rw [slice, if_neg (by omega)] at h
        exact absurd h (by simp)
      refine ⟨size, off, j, rfl, hle, fun n hn => ?_⟩
      have hlen : (pac.take n).length = n := by
        rw [List.length_take]
        omega
      -- the directory is cut, or it is read as before and the buffer is cut
      by_cases hj : n < j
      · obtain ⟨err, herr⟩ :=
          sees_directory.cut hd (List.take_prefix n pac) (Nat.zero_le _) (by omega)
        exact ⟨err, parsePac_of_error herr⟩
      · have hpre : pac.take j <+: pac.take n := List.take_prefix_take_left (by omega)
        have hd' := sees_directory.stable (Nat.zero_le _) hd hpre
        have hout : slice (pac.take n) off (off + size) = none := by
          rw [slice, if_neg (by omega)]
        refine ⟨.outOfBounds, ?_⟩
        rw [parsePac_of_directory hd', if_neg hlarge, hout]
  · cases hd : directory b 0 with
    | error err =>
      rw [parsePac_of_error hd] at h
      exact sees_directory.sound (Nat.zero_le _) (hd.trans (congrArg _ (Except.error.inj h)))
    | ok x =>
      rw [parsePac_of_directory hd] at h
      split_ifs at h
      · exact absurd h (by simp)
      · split at h
        · exact absurd h (by simp)
        · exact parseLogonInfo_ne_panic _ h

/-- The LOGON_INFO buffer of the user `al`, with two groups and an extra SID. -/
def groupInfo : Bytes :=
  [1, 0x10, 8, 0] ++ zeros 12 ++ p32 9 ++ zeros 48 ++ p16 4 ++ p16 6 ++ p32 1 ++ zeros 44 ++
    p32 1000 ++ p32 513 ++ p32 2 ++ p32 2 ++ zeros 36 ++ p32 3 ++ zeros 40 ++ p32 1 ++ p32 4 ++
    zeros 12 ++ p32 3 ++ p32 0 ++ p32 2 ++ utf16le ['a', 'l'] ++ p32 2 ++ p32 513 ++ p32 7 ++
    p32 512 ++ p32 7 ++ p32 2 ++ [1, 2, 0, 0, 0, 0, 0, 5] ++ p32 21 ++ p32 7 ++ p32 1 ++ p32 5 ++
    p32 7 ++ p32 1 ++ [1, 1, 0, 0, 0, 0, 0, 18] ++ p32 1

/-- What is in it. -/
def groupLogon : LogonInfo :=
  ⟨['a', 'l'], [], some ⟨1, 5, [21, 7]⟩, some ⟨1, 5, [21, 7, 1000]⟩,
    [⟨1, 5, [21, 7, 513]⟩, ⟨1, 5, [21, 7, 512]⟩, ⟨1, 18, [1]⟩]⟩

/-- A PAC with another buffer, and that one behind it. -/
def groupPac : Bytes :=
  p32 2 ++ p32 0 ++ p32 10 ++ p32 0 ++ p64 0 ++ p32 pacLogonInfo ++ p32 320 ++ p64 40 ++ groupInfo

/-- The buffer and the PAC are read to their last bytes. -/
theorem pac_decided_by_consumed_groups :
    parseLogonInfo (groupInfo ++ [7]) = .ok groupLogon ∧ parsePac groupPac = .ok groupLogon ∧
      (∃ err, parseLogonInfo (groupInfo.take 319) = .error err) ∧
        ∃ err, parsePac (groupPac.take 359) = .error err := by
  have hread : logonInfo groupInfo 0 = .ok (groupLogon, 320) := by decide +kernel
  have hpac : parsePac groupPac = .ok groupLogon := by decide +kernel
  have hdir : directory groupPac 0 = .ok ((320, 40), 40) := by decide +kernel
  obtain ⟨-, hmore, hless⟩ := pac_decided_by_consumed.1 _ _ _ hread
  obtain ⟨size, off, j, hj, -, hcut⟩ := pac_decided_by_consumed.2.1 _ _ hpac
  cases hdir.symm.trans hj
  exact ⟨hmore _ (by decide +kernel), hpac, hless 319 (by decide), hcut 359 (by decide)⟩

end Pac

end RocketSmbd
