import RocketSmbd.PacReader
import RocketSmbd.Codec

/-!
# Decoding what was serialized (`pac.rs`)

`ValidationInfo` is a `KERB_VALIDATION_INFO` within the limits of the decoder and `serialize` its
NDR type serialization: the headers, the fixed part with pointers, then the referents in field
order, every number aligned to its size.  The decoder gives back the names, the SIDs and the groups.
-/

namespace RocketSmbd

open ByteString

namespace Pac

open Cursor Writer

/-! ### Numbers, aligned -/

/-- Zeros up to a multiple of `a`. -/
def pad (a : ℕ) : Writer := fun i => zeros ((a - i % a) % a)

def w16 (v : UInt16) : Writer := (pad 2).seq (raw (p16 v))
def w32 (v : UInt32) : Writer := (pad 4).seq (raw (p32 v))

namespace Rd

theorem reads_indexed (s : Bytes) : Reads (indexed s.length) (raw s) s := by
  rw [indexed_eq]
  exact reads_take _ s

theorem reads_skip (s : Bytes) : Reads (skip s.length) (raw s) () :=
  (reads_take _ s).map fun _ => ()

theorem reads_align (a : ℕ) : Reads (align a) (pad a) () := by
  intro pre post
  have h := reads_skip (pad a pre.length) pre post
  rw [pad, zeros_length] at h
  exact h

theorem reads_u8 (v : UInt8) : Reads u8 (raw [v]) v := by
  have h := (reads_indexed [v]).map fun s => UInt8.ofNat (leNat s)
  have hv : UInt8.ofNat (leNat [v]) = v := by simp [leNat]
  rwa [hv] at h

theorem reads_u16 (v : UInt16) : Reads u16 (w16 v) v := by
  have hlt : v.toNat < 256 ^ 2 := v.toNat_lt
  have h := (reads_indexed (p16 v)).map fun s => UInt16.ofNat (leNat s)
  rw [p16, leNat_leBytes, Nat.mod_eq_of_lt hlt, UInt16.ofNat_toNat] at h
  exact (reads_align 2).bind h

theorem reads_u32 (v : UInt32) : Reads u32 (w32 v) v := by
  have h := (reads_indexed (p32 v)).map fun s => UInt32.ofNat (leNat s)
  rw [ofNat_leNat_p32] at h
  exact (reads_align 4).bind h

end Rd

/-! ### Values and their serialization -/

/-- A referent identifier: non-null. -/
abbrev Ref := { r : UInt32 // r ≠ 0 }

/-- A pointer: null, or an identifier and what it points to. -/
abbrev Ptr (α : Type) := Option (Ref × α)

abbrev Block (n : ℕ) := { b : Bytes // b.length = n }

/-- A text whose length in bytes fits 16 bits. -/
structure Text where
  text : Str
  short : (text.flatMap utf16Units).length < 2 ^ 15

/-- An `RPC_UNICODE_STRING` with its maximum length. -/
structure UnicodeString where
  buffer : Ptr Text
  maximum : UInt16

/-- A SID that the format can hold. -/
structure RpcSid where
  sid : Sid
  authority : sid.authority.toNat < 2 ^ 48
  nonempty : 1 ≤ sid.sub.length
  bounded : sid.sub.length ≤ maxSubauth

/-- RIDs with attributes. -/
abbrev Groups := { l : List (UInt32 × UInt32) // l.length ≤ maxGroups }

/-- SIDs, some of them null, with attributes. -/
abbrev ExtraSids := { l : List (Ptr RpcSid × UInt32) // l.length ≤ maxGroups }

/-- A `KERB_VALIDATION_INFO`. -/
structure ValidationInfo where
  times : Block 48
  effectiveName : UnicodeString
  fullName : UnicodeString
  logonScript : UnicodeString
  profilePath : UnicodeString
  homeDirectory : UnicodeString
  homeDirectoryDrive : UnicodeString
  logonCount : UInt16
  badPasswordCount : UInt16
  userId : UInt32
  primaryGroupId : UInt32
  groupIds : Ptr Groups
  userFlags : UInt32
  userSessionKey : Block 16
  logonServer : UnicodeString
  logonDomainName : UnicodeString
  logonDomainId : Ptr RpcSid
  reserved1 : Block 8
  userAccountControl : UInt32
  subAuthStatus : UInt32
  lastLogons : Block 16
  failedILogonCount : UInt32
  reserved3 : UInt32
  extraSids : Ptr ExtraSids
  resourceGroupDomainSid : Ptr RpcSid
  resourceGroupIds : Ptr Groups

def units (t : Text) : ℕ := (t.text.flatMap utf16Units).length

/-- The pointer itself. -/
def ptr {α : Type} (p : Ptr α) : Writer := w32 (p.elim 0 fun x => x.1.1)

/-- What a pointer points to, if it is non-null. -/
def referent {α : Type} (w : α → Writer) (p : Ptr α) : Writer := p.elim nil fun x => w x.2

def count (n : ℕ) : Writer := w32 (UInt32.ofNat n)

def UnicodeString.len (s : UnicodeString) : UInt16 :=
  s.buffer.elim 0 fun x => UInt16.ofNat (2 * units x.2)

def UnicodeString.hdr (s : UnicodeString) : Writer := all [w16 s.len, w16 s.maximum, ptr s.buffer]

/-- A conformant and varying array: maximum, offset and actual count, then the code units. -/
def UnicodeString.body (s : UnicodeString) : Writer :=
  referent (fun t => all [count (s.maximum.toNat / 2), w32 0, count (units t),
    raw (utf16le t.text)]) s.buffer

def writeSid (s : RpcSid) : Writer :=
  all [count s.sid.sub.length, raw [s.sid.revision], raw [UInt8.ofNat s.sid.sub.length],
    raw (leBytes 6 s.sid.authority.toNat).reverse, all (s.sid.sub.map w32)]

def writeGroups (g : Groups) : Writer :=
  all [count g.1.length, all (g.1.map fun m => all [w32 m.1, w32 m.2])]

def writeExtra (e : ExtraSids) : Writer :=
  all [count e.1.length, all (e.1.map fun m => all [ptr m.1, w32 m.2]),
    all (e.1.map fun m => referent writeSid m.1)]

namespace ValidationInfo

variable (v : ValidationInfo)

/-- FullName, LogonScript, ProfilePath, HomeDirectory and HomeDirectoryDrive. -/
def names : List UnicodeString :=
  [v.fullName, v.logonScript, v.profilePath, v.homeDirectory, v.homeDirectoryDrive]

def fixed : Writer :=
  all [raw v.times.1, v.effectiveName.hdr, all (v.names.map UnicodeString.hdr), w16 v.logonCount,
    w16 v.badPasswordCount, w32 v.userId, w32 v.primaryGroupId,
    count (v.groupIds.elim 0 fun x => x.2.1.length), ptr v.groupIds, w32 v.userFlags,
    raw v.userSessionKey.1, v.logonServer.hdr, v.logonDomainName.hdr, ptr v.logonDomainId,
    raw v.reserved1.1, w32 v.userAccountControl, w32 v.subAuthStatus, raw v.lastLogons.1,
    w32 v.failedILogonCount, w32 v.reserved3, count (v.extraSids.elim 0 fun x => x.2.1.length),
    ptr v.extraSids, ptr v.resourceGroupDomainSid,
    count (v.resourceGroupIds.elim 0 fun x => x.2.1.length), ptr v.resourceGroupIds]

def deferred : Writer :=
  all [v.effectiveName.body, all (v.names.map UnicodeString.body), referent writeGroups v.groupIds,
    v.logonServer.body, v.logonDomainName.body, referent writeSid v.logonDomainId,
    referent writeExtra v.extraSids, referent writeSid v.resourceGroupDomainSid,
    referent writeGroups v.resourceGroupIds]

/-- The common header with its filler, the private header and the pointer to the structure. -/
def header (filler length reserved : UInt32) (top : Ref) : Writer :=
  all [raw [1], raw [0x10], w16 8, w32 filler, w32 length, w32 reserved, w32 top.1]

/-- The NDR type serialization. -/
def serialize (filler length reserved : UInt32) (top : Ref) : Bytes :=
  all [header filler length reserved top, v.fixed, v.deferred] 0

end ValidationInfo

/-! ### The readers of the parts -/

section Parts

open Rd

variable {α : Type}

theorem reads_pointer (p : Ptr α) : Reads pointer (ptr p) p.isSome := by
  have h := (reads_u32 (p.elim 0 fun x => x.1.1)).map fun r => decide (r ≠ 0)
  have hsome : decide (p.elim 0 (fun x => x.1.1) ≠ (0 : UInt32)) = p.isSome := by
    cases p with
    | none => rfl
    | some x => exact decide_eq_true x.1.2
  rw [hsome] at h
  exact h

/-- A check that is passed. -/
theorem reads_else {c : Prop} [Decidable c] {p q : Rd α} {w : Writer} {v : α} (h : ¬ c)
    (hq : Reads q w v) : Reads (if c then p else q) w v := by
  rwa [if_neg h]

theorem reads_last {p : Rd α} {w : Writer} {v : α} (h : Reads p w v) : Reads p (all [w]) v := by
  change Reads p (w.seq nil) v
  rwa [seq_nil]

theorem reads_count {n : ℕ} (h : n < 2 ^ 32) :
    Reads u32 (count n) (UInt32.ofNat n) ∧ (UInt32.ofNat n).toNat = n :=
  ⟨reads_u32 _, UInt32.toNat_ofNat_of_lt' h⟩

/-- The header that is read. -/
def UnicodeString.ustr (s : UnicodeString) : UStr := ⟨s.len, s.buffer.isSome⟩

theorem reads_ustrHdr (s : UnicodeString) : Reads ustrHdr s.hdr s.ustr :=
  (reads_u16 _).bind ((reads_u16 _).bind ((reads_pointer _).bind (reads_pure _)))

theorem reads_ustrBody (s : UnicodeString) :
    Reads (ustrBody s.ustr) s.body (s.buffer.map fun x => x.2.text) := by
  cases hb : s.buffer with
  | none =>
    have hbody : s.body = nil := by rw [UnicodeString.body, hb]; rfl
    have hread : ustrBody s.ustr = pure none := by simp [ustrBody, UnicodeString.ustr, hb]
    rw [hbody, hread]
    exact reads_pure none
  | some x =>
    obtain ⟨r, t⟩ := x
    have hunits : units t < 2 ^ 15 := t.short
    have hlen : s.len.toNat = 2 * units t := by
      rw [UnicodeString.len, hb]
      exact UInt16.toNat_ofNat_of_lt' (show 2 * units t < 65536 by omega)
    have hcount := reads_count (show units t < 2 ^ 32 by omega)
    have hraw : (utf16le t.text).length = units t * 2 := by
      rw [utf16le, List.length_flatMap]
      simp [units, Nat.mul_comm]
    have hgood : ¬ (units t * 2 < s.len.toNat ∨ 0x8000 < units t) := by omega
    have htext : fromUtf16Lossy ((chunks16 (utf16le t.text)).take (s.len.toNat / 2)) = t.text := by
      have hall : (chunks16 (utf16le t.text)).take (s.len.toNat / 2) =
          chunks16 (utf16le t.text) := by
        rw [utf16le, chunks16_flatMap, hlen]
        exact List.take_of_length_le (show units t ≤ _ by omega)
      rw [hall]
      exact fromUtf16le_utf16le t.text
    have hread := (reads_take Err.truncated (utf16le t.text)).map fun raw =>
      some (fromUtf16Lossy ((chunks16 raw).take (s.len.toNat / 2)))
    rw [htext, hraw] at hread
    have hbody : s.body = all [count (s.maximum.toNat / 2), w32 0, count (units t),
        raw (utf16le t.text)] := by rw [UnicodeString.body, hb]; rfl
    have hpresent : ¬ ¬ s.ustr.present = true := by simp [UnicodeString.ustr, hb]
    rw [hbody, ustrBody, if_neg hpresent]
    refine (reads_u32 _).bind ((reads_u32 _).bind (hcount.1.bind ?_))
    rw [hcount.2]
    change Reads (if units t * 2 < s.len.toNat ∨ 0x8000 < units t then _ else _) _ _
    rw [if_neg hgood]
    exact reads_last hread

section

variable {β : Type} {p : Rd β} {w : α → Writer} {f : α → β} (h : ∀ a, Reads p (w a) (f a))
  (l : List α)
include h

theorem forall₂_map : List.Forall₂ (Reads p) (l.map w) (l.map f) := by
  rw [List.forall₂_map_left_iff, List.forall₂_map_right_iff]
  exact List.forall₂_same.2 fun a _ => h a

theorem reads_all : Reads (many p l.length) (all (l.map w)) (l.map f) := by
  have hmany := reads_many (forall₂_map h l)
  rwa [List.length_map] at hmany

end

theorem toNat_shift {acc : UInt64} {b : UInt8} (h : acc.toNat < 2 ^ 56) :
    ((acc <<< 8) ||| b.toUInt64).toNat = acc.toNat * 256 + b.toNat := by
  have hb : b.toNat < 2 ^ 8 := b.toNat_lt
  have hacc : acc.toNat <<< 8 % 2 ^ 64 = 2 ^ 8 * acc.toNat := by
    rw [Nat.shiftLeft_eq, Nat.mod_eq_of_lt (by omega), Nat.mul_comm]
  rw [UInt64.toNat_or, UInt64.toNat_shiftLeft, UInt8.toNat_toUInt64]
  change acc.toNat <<< 8 % 2 ^ 64 ||| b.toNat = _
  rw [hacc, ← Nat.two_pow_add_eq_or_of_lt hb]
  omega

theorem leNat_append_singleton (l : Bytes) (b : UInt8) :
    leNat (l ++ [b]) = leNat l + 256 ^ l.length * b.toNat := by
  induction l with
  | nil => simp [leNat]
  | cons x l ih =>
    rw [List.cons_append, leNat, ih, leNat, List.length_cons, pow_succ']
    ring

/-- Big-endian bytes, read by shifting. -/
theorem foldl_shift {l : Bytes} {acc : UInt64}
    (h : (acc.toNat + 1) * 256 ^ l.length ≤ 2 ^ 64) :
    (l.foldl (fun (acc : UInt64) b => (acc <<< 8) ||| b.toUInt64) acc).toNat =
      acc.toNat * 256 ^ l.length + leNat l.reverse := by
  induction l generalizing acc with
  | nil => simp [leNat]
  | cons b l ih =>
    have hb : b.toNat < 256 := b.toNat_lt
    have hpow : 1 ≤ 256 ^ l.length := Nat.one_le_pow _ _ (by decide)
    rw [List.length_cons, pow_succ', ← mul_assoc] at h
    have hacc : acc.toNat < 2 ^ 56 := by nlinarith
    have hstep := toNat_shift (b := b) hacc
    have hnext : (acc.toNat * 256 + b.toNat + 1) * 256 ^ l.length ≤ 2 ^ 64 :=
      (Nat.mul_le_mul_right _ (by omega)).trans h
    rw [List.foldl_cons, ih (by rwa [hstep]), hstep, List.reverse_cons, leNat_append_singleton,
      List.length_reverse, List.length_cons, pow_succ']
    ring

/-- The authority is read back. -/
theorem foldl_authority {n : UInt64} (h : n.toNat < 2 ^ 48) :
    (leBytes 6 n.toNat).reverse.foldl (fun (acc : UInt64) b => (acc <<< 8) ||| b.toUInt64) 0 =
      n := by
  apply UInt64.toNat_inj.1
  rw [foldl_shift (by simp), List.reverse_reverse, leNat_leBytes, Nat.mod_eq_of_lt (by omega)]
  simp

theorem reads_sid (s : RpcSid) : Reads sid (writeSid s) s.sid := by
  have hone := s.nonempty
  have hmax := s.bounded
  unfold maxSubauth at hmax
  have hcount := reads_count (show s.sid.sub.length < 2 ^ 32 by omega)
  have hbyte : (UInt8.ofNat s.sid.sub.length).toNat = s.sid.sub.length :=
    UInt8.toNat_ofNat_of_lt' (show s.sid.sub.length < 256 by omega)
  have hnonzero : UInt8.ofNat s.sid.sub.length ≠ 0 := by
    intro h0
    rw [h0] at hbyte
    change 0 = _ at hbyte
    omega
  have hgood : ¬ ((UInt8.ofNat s.sid.sub.length).toNat ≠ (UInt32.ofNat s.sid.sub.length).toNat ∨
      UInt8.ofNat s.sid.sub.length = 0 ∨ maxSubauth < (UInt8.ofNat s.sid.sub.length).toNat) := by
    rw [hbyte, hcount.2]
    rintro (h | h | h)
    · exact h rfl
    · exact hnonzero h
    · exact absurd h (Nat.not_lt.2 s.bounded)
  have hauth := reads_take Err.truncated (leBytes 6 s.sid.authority.toNat).reverse
  rw [List.length_reverse, leBytes_length] at hauth
  have hsubs := reads_all reads_u32 s.sid.sub
  rw [List.map_id'] at hsubs
  refine hcount.1.bind ((reads_u8 _).bind ((reads_u8 _).bind (reads_else hgood (hauth.bind ?_))))
  rw [hbyte]
  have hlast := reads_last (hsubs.map fun sub =>
    (⟨s.sid.revision, s.sid.authority, sub⟩ : Sid))
  rw [foldl_authority s.authority]
  exact hlast

theorem reads_withAttributes {p : Rd α} {w : Writer} {v : α} (h : Reads p w v) (a : UInt32) :
    Reads (withAttributes p) (all [w, w32 a]) v :=
  h.bind ((reads_u32 a).bind (reads_pure v))

theorem reads_rids (g : Groups) : Reads rids (writeGroups g) (g.1.map Prod.fst) := by
  have hle := g.2
  unfold maxGroups at hle
  have hcount := reads_count (show g.1.length < 2 ^ 32 by omega)
  have hrids := reads_all (fun m : UInt32 × UInt32 =>
    reads_withAttributes (reads_u32 m.1) m.2) g.1
  refine hcount.1.bind (reads_else (by rw [hcount.2]; exact Nat.not_lt.2 g.2) ?_)
  rw [hcount.2]
  exact reads_last hrids

/-- The SIDs that are not null. -/
def ExtraSids.sids (e : ExtraSids) : List Sid := e.1.filterMap fun m => m.1.map fun x => x.2.sid

theorem reads_sids (l : List (Ptr RpcSid × UInt32)) :
    Reads (sids (l.map fun m => m.1.isSome)) (all (l.map fun m => referent writeSid m.1))
      (l.filterMap fun m => m.1.map fun x => x.2.sid) := by
  induction l with
  | nil => exact reads_pure []
  | cons m l ih =>
    obtain ⟨p, a⟩ := m
    cases p with
    | none =>
      intro pre post
      have h := ih pre post
      rwa [← Nat.add_zero pre.length] at h
    | some x => exact (reads_sid x.2).bind (ih.map _)

theorem reads_extraSids (e : ExtraSids) : Reads extraSids (writeExtra e) e.sids := by
  have hle := e.2
  unfold maxGroups at hle
  have hcount := reads_count (show e.1.length < 2 ^ 32 by omega)
  have hptrs := reads_all (fun m : Ptr RpcSid × UInt32 =>
    reads_withAttributes (reads_pointer m.1) m.2) e.1
  refine hcount.1.bind (reads_else (by rw [hcount.2]; exact Nat.not_lt.2 e.2) ?_)
  rw [hcount.2]
  exact hptrs.bind (reads_last (reads_sids e.1))

theorem reads_deferred {β : Type} {p : Rd β} {w : α → Writer} {f : α → β}
    (h : ∀ a, Reads p (w a) (f a)) (x : Ptr α) :
    Reads (deferred x.isSome p) (referent w x) (x.map fun y => f y.2) := by
  cases x with
  | none => exact reads_pure none
  | some y => exact (h y.2).map some

theorem reads_block {n : ℕ} (b : Block n) : Reads (skip n) (raw b.1) () := by
  have h := reads_skip b.1
  rwa [b.2] at h

theorem reads_skipStrs (l : List UnicodeString) :
    Reads (skipStrs (l.map UnicodeString.ustr)) (all (l.map UnicodeString.body)) () := by
  induction l with
  | nil => exact reads_pure ()
  | cons s l ih => exact (reads_ustrBody s).bind ih

end Parts

/-! ### The whole structure -/

namespace ValidationInfo

open Rd

variable (v : ValidationInfo)

/-- What is kept of the fixed part. -/
def kept : Fixed :=
  ⟨v.effectiveName.ustr, v.names.map UnicodeString.ustr, v.userId, v.primaryGroupId,
    v.groupIds.isSome, v.logonServer.ustr, v.logonDomainName.ustr, v.logonDomainId.isSome,
    v.extraSids.isSome, v.resourceGroupDomainSid.isSome, v.resourceGroupIds.isSome⟩

variable (filler length reserved : UInt32)

theorem reads_header (top : Ref) :
    Reads ndrHeader (header filler length reserved top) () :=
  (reads_u8 1).bind <| (reads_u8 0x10).bind <| (reads_u16 8).bind <| reads_else (by decide) <|
    (reads_u32 filler).bind <| (reads_u32 length).bind <| (reads_u32 reserved).bind <|
    (reads_u32 top.1).bind <| reads_else top.2 (reads_pure ())

theorem reads_fixed : Reads fixedPart v.fixed v.kept := by
  have hnames := reads_all reads_ustrHdr v.names
  exact (reads_block v.times).bind <| (reads_ustrHdr v.effectiveName).bind <| hnames.bind <|
    (reads_u16 v.logonCount).bind <| (reads_u16 v.badPasswordCount).bind <|
    (reads_u32 v.userId).bind <| (reads_u32 v.primaryGroupId).bind <| (reads_u32 _).bind <|
    (reads_pointer v.groupIds).bind <| (reads_u32 v.userFlags).bind <|
    (reads_block v.userSessionKey).bind <| (reads_ustrHdr v.logonServer).bind <|
    (reads_ustrHdr v.logonDomainName).bind <| (reads_pointer v.logonDomainId).bind <|
    (reads_block v.reserved1).bind <| (reads_u32 v.userAccountControl).bind <|
    (reads_u32 v.subAuthStatus).bind <| (reads_block v.lastLogons).bind <|
    (reads_u32 v.failedILogonCount).bind <| (reads_u32 v.reserved3).bind <| (reads_u32 _).bind <|
    (reads_pointer v.extraSids).bind <| (reads_pointer v.resourceGroupDomainSid).bind <|
    (reads_u32 _).bind <| (reads_pointer v.resourceGroupIds).bind <| reads_pure v.kept

/-- The text of a string; a null string has none. -/
def text (s : UnicodeString) : Str := (s.buffer.map fun x => x.2.text).getD []

def sidOf (p : Ptr RpcSid) : Option Sid := p.map fun x => x.2.sid

def ridsOf (p : Ptr Groups) : List UInt32 := (p.map fun x => x.2.1.map Prod.fst).getD []

def extraOf (p : Ptr ExtraSids) : List Sid := (p.map fun x => x.2.sids).getD []

/-- What the pointers point to. -/
def values : Referents :=
  ⟨text v.effectiveName, ridsOf v.groupIds, text v.logonDomainName, sidOf v.logonDomainId,
    extraOf v.extraSids, sidOf v.resourceGroupDomainSid, ridsOf v.resourceGroupIds⟩

theorem reads_referents : Reads (referents v.kept) v.deferred v.values :=
  (reads_ustrBody v.effectiveName).bind <| (reads_skipStrs v.names).bind <|
    (reads_deferred reads_rids v.groupIds).bind <| (reads_ustrBody v.logonServer).bind <|
    (reads_ustrBody v.logonDomainName).bind <| (reads_deferred reads_sid v.logonDomainId).bind <|
    (reads_deferred reads_extraSids v.extraSids).bind <|
    (reads_deferred reads_sid v.resourceGroupDomainSid).bind <|
    (reads_deferred reads_rids v.resourceGroupIds).bind <| reads_pure v.values

/-- What is decoded. -/
def info : LogonInfo :=
  ⟨text v.effectiveName, text v.logonDomainName, sidOf v.logonDomainId,
    (sidOf v.logonDomainId).map (·.withRid v.userId), (tokenGroups v.kept v.values).foldl add []⟩

theorem reads_logonInfo (top : Ref) :
    Reads logonInfo (all [header filler length reserved top, v.fixed, v.deferred]) v.info :=
  (reads_header filler length reserved top).bind <| v.reads_fixed.bind <|
    v.reads_referents.bind <| reads_pure v.info

theorem parseLogonInfo_serialize (top : Ref) (post : Bytes) :
    parseLogonInfo (v.serialize filler length reserved top ++ post) = .ok v.info := by
  have h := v.reads_logonInfo filler length reserved top [] post
  rw [List.nil_append] at h
  exact map_fst_eq_ok.2 ⟨_, h⟩

/-- The group SIDs of the token. -/
def InToken (g : Sid) : Prop :=
  (∃ d, sidOf v.logonDomainId = some d ∧
      (g = d.withRid v.primaryGroupId ∨ ∃ rid ∈ ridsOf v.groupIds, g = d.withRid rid)) ∨
    g ∈ extraOf v.extraSids ∨
    ∃ d, sidOf v.resourceGroupDomainSid = some d ∧
      ∃ rid ∈ ridsOf v.resourceGroupIds, g = d.withRid rid

end ValidationInfo

theorem foldl_add (l acc : List Sid) (h : acc.Nodup) :
    (l.foldl add acc).Nodup ∧ ∀ g, g ∈ l.foldl add acc ↔ g ∈ acc ∨ g ∈ l := by
  induction l generalizing acc with
  | nil => exact ⟨h, by simp⟩
  | cons s l ih =>
    by_cases hs : s ∈ acc
    · have hadd : add acc s = acc := if_pos hs
      obtain ⟨hnodup, hmem⟩ := ih acc h
      rw [List.foldl_cons, hadd]
      refine ⟨hnodup, fun g => (hmem g).trans ?_⟩
      rw [List.mem_cons]
      exact ⟨fun hg => hg.imp_right .inr, by rintro (hg | rfl | hg) <;> simp_all⟩
    · have hadd : add acc s = acc ++ [s] := if_neg hs
      have hnew : (acc ++ [s]).Nodup := List.nodup_append.2 ⟨h, List.nodup_singleton s, by
        rintro a ha b hb rfl
        exact hs (List.mem_singleton.1 hb ▸ ha)⟩
      obtain ⟨hnodup, hmem⟩ := ih (acc ++ [s]) hnew
      rw [List.foldl_cons, hadd]
      refine ⟨hnodup, fun g => (hmem g).trans ?_⟩
      rw [List.mem_append, List.mem_singleton, List.mem_cons, or_assoc]

theorem ValidationInfo.mem_groups (v : ValidationInfo) :
    v.info.groups.Nodup ∧ ∀ g, g ∈ v.info.groups ↔ v.InToken g := by
  obtain ⟨hnodup, hmem⟩ := foldl_add (tokenGroups v.kept v.values) [] List.nodup_nil
  refine ⟨hnodup, fun g => (hmem g).trans ?_⟩
  simp only [tokenGroups, ValidationInfo.InToken, ValidationInfo.values, ValidationInfo.kept,
    List.not_mem_nil, false_or, List.mem_append, List.mem_flatMap, Option.mem_toList,
    List.mem_cons, List.mem_map, or_assoc, eq_comm]

/-! ### The directory -/

def w64 (v : UInt64) : Writer := all [w32 v.toUInt32, w32 (v >>> 32).toUInt32]

/-- An entry of the directory: the type, the size and the offset of a buffer. -/
structure Entry where
  type : UInt32
  size : UInt32
  off : UInt64

def Entry.write (e : Entry) : Writer := all [w32 e.type, w32 e.size, w64 e.off]

/-- The head of a `PACTYPE`: the number of buffers, the version and the directory. -/
def pacHead (version : UInt32) (entries : List Entry) : Bytes :=
  all [count entries.length, w32 version, all (entries.map Entry.write)] 0

theorem halves (v : UInt64) :
    v.toUInt32.toUInt64 ||| ((v >>> 32).toUInt32.toUInt64 <<< 32) = v := by
  have hv : v.toNat < 2 ^ 64 := v.toNat_lt
  have hlo : v.toUInt32.toNat = v.toNat % 2 ^ 32 := by simp
  have hhi : (v >>> 32).toUInt32.toNat = v.toNat / 2 ^ 32 := by
    rw [UInt64.toNat_toUInt32, UInt64.toNat_shiftRight]
    change v.toNat >>> 32 % 2 ^ 32 = _
    rw [Nat.shiftRight_eq_div_pow]
    omega
  apply UInt64.toNat_inj.1
  rw [UInt64.toNat_or, UInt64.toNat_shiftLeft, UInt32.toNat_toUInt64, UInt32.toNat_toUInt64, hlo,
    hhi]
  change v.toNat % 2 ^ 32 ||| (v.toNat / 2 ^ 32) <<< 32 % 2 ^ 64 = _
  have hshift : (v.toNat / 2 ^ 32) <<< 32 % 2 ^ 64 = 2 ^ 32 * (v.toNat / 2 ^ 32) := by
    rw [Nat.shiftLeft_eq, Nat.mod_eq_of_lt (by omega), Nat.mul_comm]
  rw [hshift, Nat.or_comm, ← Nat.two_pow_add_eq_or_of_lt (Nat.mod_lt _ (by decide))]
  omega

section Directory

open Rd

theorem reads_u64 (v : UInt64) : Reads u64 (w64 v) v := by
  have h : Reads u64 (w64 v) (v.toUInt32.toUInt64 ||| ((v >>> 32).toUInt32.toUInt64 <<< 32)) :=
    (reads_u32 v.toUInt32).bind ((reads_u32 (v >>> 32).toUInt32).bind (reads_pure _))
  rwa [halves] at h

def entry : Rd Entry := do
  let type ← u32
  let size ← u32
  let off ← u64
  pure ⟨type, size, off⟩

theorem reads_entry (e : Entry) : Reads entry e.write e :=
  (reads_u32 e.type).bind <| (reads_u32 e.size).bind <| (reads_u64 e.off).bind <| reads_pure e

theorem logonBuffer_succ (n : ℕ) : logonBuffer (n + 1) = entry >>= fun e =>
    if e.type = pacLogonInfo then pure (e.size.toNat, e.off.toNat) else logonBuffer n := by
  rw [logonBuffer, entry]
  simp only [bind_assoc, pure_bind]

/-- The directory is read up to the first entry of the type; the induction is over its entries. -/
theorem logonBuffer_run {entries : List Entry} {e : Entry}
    (h : entries.find? (·.type = pacLogonInfo) = some e) (pre post : Bytes) :
    ∃ j, logonBuffer entries.length
      (pre ++ all (entries.map Entry.write) pre.length ++ post) pre.length =
        .ok ((e.size.toNat, e.off.toNat), j) := by
  induction entries generalizing pre with
  | nil => simp at h
  | cons x entries ih =>
    have hthen := (reads_entry x).andThen
      (fun e => if e.type = pacLogonInfo then pure (e.size.toNat, e.off.toNat)
        else logonBuffer entries.length) (all (entries.map Entry.write)) pre post
    rw [← logonBuffer_succ] at hthen
    rw [List.length_cons]
    refine Exists.imp (fun j hj => hthen.trans hj) ?_
    by_cases hx : x.type = pacLogonInfo
    · obtain rfl : x = e := by simpa [hx] using h
      rw [if_pos hx]
      exact ⟨_, rfl⟩
    · rw [if_neg hx]
      have hrest : entries.find? (·.type = pacLogonInfo) = some e := by simpa [hx] using h
      exact ih hrest (pre ++ x.write pre.length)

theorem directory_run (version : UInt32) {entries : List Entry} {e : Entry}
    (hcount : 1 ≤ entries.length ∧ entries.length ≤ 64)
    (h : entries.find? (·.type = pacLogonInfo) = some e) (post : Bytes) :
    ∃ j, directory (pacHead version entries ++ post) 0 = .ok ((e.size.toNat, e.off.toNat), j) := by
  obtain ⟨hread, hn⟩ := reads_count (show entries.length < 2 ^ 32 by omega)
  set n := UInt32.ofNat entries.length
  have hgood : ¬ (n = 0 ∨ 64 < n.toNat) := by
    rintro (h0 | hmany)
    · rw [h0] at hn
      change 0 = _ at hn
      omega
    · omega
  have hfirst := hread.andThen (fun count => do
    let _ ← u32
    if count = 0 ∨ 64 < count.toNat then throw (.bufferCount count.toNat)
    else logonBuffer count.toNat) (all [w32 version, all (entries.map Entry.write)]) [] post
  have hsecond := (reads_u32 version).andThen (fun _ =>
    if n = 0 ∨ 64 < n.toNat then throw (.bufferCount n.toNat) else logonBuffer n.toNat)
    (all [all (entries.map Entry.write)]) ([] ++ count entries.length 0) post
  refine Exists.imp (fun j hj => hfirst.trans (hsecond.trans hj)) ?_
  rw [if_neg hgood, hn, all, List.foldr_cons, List.foldr_nil, Writer.seq_nil]
  exact logonBuffer_run h _ post

end Directory

/-- **PAC decoding is correct.**  The serialization of a `KERB_VALIDATION_INFO`, with whatever
follows it, gives the two names, the SIDs of the domain and the user, and without repetition the
groups of the token; and so does a PAC of at most 64 buffers of which the first LOGON_INFO is that
serialization. -/
theorem pac_decoded (v : ValidationInfo) (filler length reserved : UInt32) (top : Ref)
    (post : Bytes) :
    ∃ l : LogonInfo,
      parseLogonInfo (v.serialize filler length reserved top ++ post) = .ok l ∧
      l.user = ValidationInfo.text v.effectiveName ∧
      l.domain = ValidationInfo.text v.logonDomainName ∧
      l.domainSid = ValidationInfo.sidOf v.logonDomainId ∧
      l.userSid = (ValidationInfo.sidOf v.logonDomainId).map (·.withRid v.userId) ∧
      l.groups.Nodup ∧ (∀ g, g ∈ l.groups ↔ v.InToken g) ∧
      ∀ (version : UInt32) (entries : List Entry) (e : Entry) (rest : Bytes),
        1 ≤ entries.length → entries.length ≤ 64 →
        entries.find? (·.type = pacLogonInfo) = some e →
        (pacHead version entries ++ rest).length < 2 ^ 64 →
        slice (pacHead version entries ++ rest) e.off.toNat (e.off.toNat + e.size.toNat) =
          some (v.serialize filler length reserved top ++ post) →
        parsePac (pacHead version entries ++ rest) = .ok l := by
  have hparse := v.parseLogonInfo_serialize filler length reserved top post
  obtain ⟨hnodup, hmem⟩ := v.mem_groups
  refine ⟨v.info, hparse, rfl, rfl, rfl, rfl, hnodup, hmem, ?_⟩
  intro version entries e rest hone hmany hfirst hlen hslice
  obtain ⟨j, hj⟩ := directory_run version ⟨hone, hmany⟩ hfirst rest
  have hle : e.off.toNat + e.size.toNat ≤ (pacHead version entries ++ rest).length := by
    unfold slice at hslice
    split_ifs at hslice with hin
    exact hin.2
  rw [parsePac_of_directory hj, if_neg (by omega), hslice]
  exact hparse

section Sample

def noString : UnicodeString := ⟨none, 0⟩

/-- The SID of a domain. -/
def domainSid : RpcSid := ⟨⟨1, 5, [21, 7]⟩, by decide, by decide, by decide⟩

/-- A user `al` of a domain, in a group twice, with a null extra SID. -/
def sampleInfo : ValidationInfo where
  times := ⟨zeros 48, rfl⟩
  effectiveName := ⟨some (⟨1, by decide⟩, ⟨"al".toList, by decide⟩), 6⟩
  fullName := noString
  logonScript := noString
  profilePath := noString
  homeDirectory := noString
  homeDirectoryDrive := noString
  logonCount := 0
  badPasswordCount := 0
  userId := 1000
  primaryGroupId := 513
  groupIds := some (⟨2, by decide⟩, ⟨[(513, 7), (512, 7)], by decide⟩)
  userFlags := 0
  userSessionKey := ⟨zeros 16, rfl⟩
  logonServer := noString
  logonDomainName := noString
  logonDomainId := some (⟨3, by decide⟩, domainSid)
  reserved1 := ⟨zeros 8, rfl⟩
  userAccountControl := 0
  subAuthStatus := 0
  lastLogons := ⟨zeros 16, rfl⟩
  failedILogonCount := 0
  reserved3 := 0
  extraSids := some (⟨4, by decide⟩, ⟨[(none, 7)], by decide⟩)
  resourceGroupDomainSid := none
  resourceGroupIds := none

/-- A buffer of another type, then the LOGON_INFO of the sample. -/
def sampleEntries : List Entry := [⟨10, 0, 0⟩, ⟨pacLogonInfo, 304, 40⟩]

theorem pac_decoded_sample : ∃ l : LogonInfo,
    parsePac (pacHead 0 sampleEntries ++ sampleInfo.serialize 0 0 0 ⟨9, by decide⟩) = .ok l ∧
      l.user = "al".toList ∧ l.userSid = some ⟨1, 5, [21, 7, 1000]⟩ ∧
        ∀ g, g ∈ l.groups ↔ sampleInfo.InToken g := by
  obtain ⟨l, -, huser, -, -, hsid, -, hgroups, hpac⟩ :=
    pac_decoded sampleInfo 0 0 0 ⟨9, by decide⟩ []
  refine ⟨l, hpac 0 sampleEntries ⟨pacLogonInfo, 304, 40⟩ _ (by decide) (by decide) rfl
    (by decide +kernel) (by decide +kernel), huser, hsid, hgroups⟩

end Sample

end Pac

end RocketSmbd
