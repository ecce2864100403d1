import RocketSmbd.Smb2.Negotiate
import RocketSmbd.Codec

/-!
# The dialect list of an SMB1 NEGOTIATE (`smb2/handlers.rs`)

`smb1NegotiateDialects` cuts the dialect list into byte strings.  Here they become the strings
that the source keeps, and the parser is compared with the grammar of the list: a 0x02 byte and a
NUL-terminated name for each entry, at most 64 entries.
-/

namespace RocketSmbd

open ByteString

/-! ### Lossy UTF-8 -/

/-- U+FFFD, which stands for a malformed part. -/
def replacement : Char := Char.ofNat 0xFFFD

/-- A continuation byte. -/
def isCont (b : UInt8) : Bool := 0x80 ≤ b ∧ b ≤ 0xBF

/-- How many bytes a character takes that starts with `lead`; none starts with a byte of width 0. -/
def utf8CharWidth (lead : UInt8) : ℕ :=
  if lead < 0x80 then 1 else if lead < 0xC2 then 0 else if lead < 0xE0 then 2
  else if lead < 0xF0 then 3 else if lead < 0xF5 then 4 else 0

/-- The second byte after a lead of three or four: no overlong form, no surrogate and nothing
above U+10FFFF. -/
def isSecond (lead b : UInt8) : Bool :=
  if lead = 0xE0 then 0xA0 ≤ b ∧ b ≤ 0xBF
  else if lead = 0xED then 0x80 ≤ b ∧ b ≤ 0x9F
  else if lead = 0xF0 then 0x90 ≤ b ∧ b ≤ 0xBF
  else if lead = 0xF4 then 0x80 ≤ b ∧ b ≤ 0x8F
  else isCont b

/-- The scalar value of the payload bits of a lead byte and its continuation bytes. -/
def scalar (lead : ℕ) (conts : List UInt8) : Char :=
  Char.ofNat (conts.foldl (fun n b => n * 64 + (b.toNat - 0x80)) lead)

/-- `String::from_utf8_lossy`: the longest part of a character at a malformed place becomes one
U+FFFD. -/
def fromUtf8Lossy : Bytes → Str
  | [] => []
  | b :: rest =>
    match utf8CharWidth b, rest with
    | 1, rest => Char.ofNat b.toNat :: fromUtf8Lossy rest
    | 2, c :: rest =>
      if isCont c then scalar (b.toNat - 0xC0) [c] :: fromUtf8Lossy rest
      else replacement :: fromUtf8Lossy (c :: rest)
    | 3, c :: rest =>
      if isSecond b c then
        match rest with
        | d :: rest =>
          if isCont d then scalar (b.toNat - 0xE0) [c, d] :: fromUtf8Lossy rest
          else replacement :: fromUtf8Lossy (d :: rest)
        | [] => [replacement]
      else replacement :: fromUtf8Lossy (c :: rest)
    | 4, c :: rest =>
      if isSecond b c then
        match rest with
        | d :: rest =>
          if isCont d then
            match rest with
            | e :: rest =>
              if isCont e then scalar (b.toNat - 0xF0) [c, d, e] :: fromUtf8Lossy rest
              else replacement :: fromUtf8Lossy (e :: rest)
            | [] => [replacement]
          else replacement :: fromUtf8Lossy (d :: rest)
        | [] => [replacement]
      else replacement :: fromUtf8Lossy (c :: rest)
    | _, rest => replacement :: fromUtf8Lossy rest

/-- The bytes of an ASCII text. -/
def asciiBytes (s : Str) : Bytes := s.map fun c => UInt8.ofNat c.toNat

/-- Every character is ASCII. -/
def IsAscii (s : Str) : Prop := ∀ c ∈ s, c.toNat < 0x80

theorem fromUtf8Lossy_ascii_cons {b : UInt8} (hb : b < 0x80) (rest : Bytes) :
    fromUtf8Lossy (b :: rest) = Char.ofNat b.toNat :: fromUtf8Lossy rest := by
  have hwidth : utf8CharWidth b = 1 := if_pos hb
  rw [fromUtf8Lossy.eq_def]
  dsimp only
  rw [hwidth]
  cases rest <;> rfl

theorem utf8CharWidth_bounds (b : UInt8) :
    (utf8CharWidth b = 1 → b.toNat < 0x80) ∧
      (utf8CharWidth b = 2 → 0xC2 ≤ b.toNat ∧ b.toNat < 0xE0) ∧
      (utf8CharWidth b = 3 → 0xE0 ≤ b.toNat ∧ b.toNat < 0xF0) ∧
      (utf8CharWidth b = 4 → 0xF0 ≤ b.toNat ∧ b.toNat < 0xF5) := by
  simp only [utf8CharWidth, UInt8.lt_iff_toNat_lt, UInt8.reduceToNat]
  refine ⟨?_, ?_, ?_, ?_⟩ <;> intro h <;> split_ifs at h <;> omega

theorem isCont_bounds {b : UInt8} (h : isCont b) : 0x80 ≤ b.toNat ∧ b.toNat ≤ 0xBF := by
  simpa [isCont, UInt8.le_iff_toNat_le] using h

/-- What the second byte of a character of three or four bytes can be. -/
theorem isSecond_bounds {lead b : UInt8} (h : isSecond lead b) :
    0x80 ≤ b.toNat ∧ b.toNat ≤ 0xBF ∧ (lead.toNat = 0xE0 → 0xA0 ≤ b.toNat) ∧
      (lead.toNat = 0xED → b.toNat ≤ 0x9F) ∧ (lead.toNat = 0xF0 → 0x90 ≤ b.toNat) ∧
      (lead.toNat = 0xF4 → b.toNat ≤ 0x8F) := by
  simp only [isSecond, isCont, UInt8.le_iff_toNat_le, ← UInt8.toNat_inj, UInt8.reduceToNat] at h
  split_ifs at h <;> simp only [Bool.decide_and, Bool.and_eq_true, decide_eq_true_eq] at h <;> omega

/-- A character of several bytes is not ASCII, and neither is U+FFFD. -/
theorem fromUtf8Lossy_head {b : UInt8} (hb : ¬ b < 0x80) (rest : Bytes) :
    ∃ c s, fromUtf8Lossy (b :: rest) = c :: s ∧ 0x80 ≤ c.toNat := by
  have hrep : 0x80 ≤ replacement.toNat := by decide
  have hscalar : ∀ n, 0x80 ≤ n → Nat.isValidChar n → 0x80 ≤ (Char.ofNat n).toNat := by
    intro n hn hvalid
    rwa [toNat_ofNat_of_isValidChar hvalid]
  obtain ⟨hone, htwo, hthree, hfour⟩ := utf8CharWidth_bounds b
  simp only [UInt8.lt_iff_toNat_lt, UInt8.reduceToNat] at hb
  rw [fromUtf8Lossy.eq_def]
  dsimp only
  split
  · rename_i hw
    exact absurd (hone hw) hb
  · rename_i c rest hw
    split_ifs with hc
    · have hlead := htwo hw
      have hcont := isCont_bounds hc
      refine ⟨_, _, rfl, hscalar _ ?_ ?_⟩
      · simp only [List.foldl_cons, List.foldl_nil]
        omega
      · simp only [List.foldl_cons, List.foldl_nil, Nat.isValidChar]
        omega
    · exact ⟨_, _, rfl, hrep⟩
  · rename_i c rest hw
    split_ifs with hc
    · have hlead := hthree hw
      have hcont := isSecond_bounds hc
      split
      · rename_i d rest
        split_ifs with hd
        · have hlast := isCont_bounds hd
          refine ⟨_, _, rfl, hscalar _ ?_ ?_⟩
          · simp only [List.foldl_cons, List.foldl_nil]
            omega
          · simp only [List.foldl_cons, List.foldl_nil, Nat.isValidChar]
            omega
        · exact ⟨_, _, rfl, hrep⟩
      · exact ⟨_, _, rfl, hrep⟩
    · exact ⟨_, _, rfl, hrep⟩
  · rename_i c rest hw
    split_ifs with hc
    · have hlead := hfour hw
      have hcont := isSecond_bounds hc
      split
      · rename_i d rest
        split_ifs with hd
        · have hthird := isCont_bounds hd
          split
          · rename_i e rest
            split_ifs with he
            · have hlast := isCont_bounds he
              refine ⟨_, _, rfl, hscalar _ ?_ ?_⟩
              · simp only [List.foldl_cons, List.foldl_nil]
                omega
              · simp only [List.foldl_cons, List.foldl_nil, Nat.isValidChar]
                omega
            · exact ⟨_, _, rfl, hrep⟩
          · exact ⟨_, _, rfl, hrep⟩
        · exact ⟨_, _, rfl, hrep⟩
      · exact ⟨_, _, rfl, hrep⟩
    · exact ⟨_, _, rfl, hrep⟩
  · exact ⟨_, _, rfl, hrep⟩

/-- An ASCII text is decoded from its own bytes and from no others. -/
theorem fromUtf8Lossy_eq_ascii {b : Bytes} {s : Str} (hs : IsAscii s) :
    fromUtf8Lossy b = s ↔ b = asciiBytes s := by
  induction s generalizing b with
  | nil =>
    cases b with
    | nil => simp [fromUtf8Lossy, asciiBytes]
    | cons x b =>
      refine ⟨fun h => ?_, fun h => absurd h (by simp [asciiBytes])⟩
      by_cases hx : x < 0x80
      · rw [fromUtf8Lossy_ascii_cons hx] at h
        exact absurd h (by simp)
      · obtain ⟨c, s, hcs, -⟩ := fromUtf8Lossy_head hx b
        rw [hcs] at h
        exact absurd h (by simp)
  | cons c s ih =>
    have hc : c.toNat < 0x80 := hs c (by simp)
    have ih : ∀ {b : Bytes}, fromUtf8Lossy b = s ↔ b = asciiBytes s :=
      ih fun d hd => hs d (by simp [hd])
    have hbyte : (UInt8.ofNat c.toNat).toNat = c.toNat :=
      UInt8.toNat_ofNat_of_lt' (show c.toNat < 256 by omega)
    cases b with
    | nil => simp [fromUtf8Lossy, asciiBytes]
    | cons x b =>
      by_cases hx : x < 0x80
      · have hvalid : Nat.isValidChar x.toNat := by
          rw [UInt8.lt_iff_toNat_lt] at hx
          exact .inl (hx.trans (by decide))
        have hchar : Char.ofNat x.toNat = c ↔ x = UInt8.ofNat c.toNat := by
          constructor
          · rintro rfl
            rw [toNat_ofNat_of_isValidChar hvalid, UInt8.ofNat_toNat]
          · rintro rfl
            rw [hbyte, Char.ofNat_toNat]
        rw [fromUtf8Lossy_ascii_cons hx, asciiBytes, List.map_cons, List.cons.injEq,
          List.cons.injEq, hchar, ih, asciiBytes]
      · obtain ⟨d, t, hdt, hd⟩ := fromUtf8Lossy_head hx b
        have hne : ¬ x = UInt8.ofNat c.toNat := by
          rintro rfl
          rw [UInt8.lt_iff_toNat_lt, hbyte] at hx
          exact hx hc
        have hne' : ¬ d = c := by
          rintro rfl
          omega
        rw [hdt, asciiBytes, List.map_cons, List.cons.injEq, List.cons.injEq]
        exact ⟨fun h => absurd h.1 hne', fun h => absurd h.1 hne⟩

/-! ### The grammar of the dialect list -/

/-- The entries of a dialect list: a 0x02 byte and a NUL-terminated name each. -/
def dialectEntries (names : List Bytes) : Bytes := names.flatMap fun n => 0x02 :: (n ++ [0])

theorem untilNul_eq_some {b name rest : Bytes} :
    untilNul b = some (name, rest) ↔ b = name ++ 0 :: rest ∧ 0 ∉ name := by
  induction b generalizing name with
  | nil => simp [untilNul]
  | cons x b ih =>
    rw [untilNul]
    split_ifs with hx
    · subst hx
      constructor
      · intro h
        obtain ⟨rfl, rfl⟩ := Prod.mk.inj (Option.some.inj h)
        simp
      · rintro ⟨hb, hname⟩
        cases name with
        | nil => simpa using hb
        | cons y name =>
          have hy : y = 0 := (List.cons.inj hb).1.symm
          exact absurd (by simp [hy]) hname
    · rw [Option.map_eq_some_iff]
      constructor
      · rintro ⟨⟨s, r⟩, hs, heq⟩
        obtain ⟨rfl, rfl⟩ := Prod.mk.inj heq
        obtain ⟨rfl, hs0⟩ := ih.1 hs
        exact ⟨rfl, by simp [hs0, Ne.symm hx]⟩
      · rintro ⟨hb, hname⟩
        cases name with
        | nil => exact absurd (List.cons.inj hb).1 hx
        | cons y name =>
          obtain ⟨rfl, hrest⟩ := List.cons.inj hb
          have hname' : 0 ∉ name := fun h => hname (by simp [h])
          exact ⟨(name, rest), ih.2 ⟨hrest, hname'⟩, rfl⟩

/-- The loop accepts the entries of NUL-free names as long as the cap is not passed.  The induction
is on the fuel, which the length of the bytes bounds; `n` entries were read before. -/
theorem smb1Dialects_eq_some {fuel : ℕ} {b : Bytes} (hfuel : b.length ≤ fuel) {n : ℕ}
    (hn : n ≤ 64) {names : List Bytes} :
    smb1Dialects fuel b n = some names ↔
      b = dialectEntries names ∧ (∀ x ∈ names, 0 ∉ x) ∧ n + names.length ≤ 64 := by
  induction fuel generalizing b n names with
  | zero =>
    obtain rfl : b = [] := List.length_eq_zero_iff.1 (by omega)
    cases names with
    | nil => simp [smb1Dialects, dialectEntries, hn]
    | cons x names => simp [smb1Dialects, dialectEntries]
  | succ fuel ih =>
    cases b with
    | nil =>
      cases names with
      | nil => simp [smb1Dialects, dialectEntries, hn]
      | cons x names => simp [smb1Dialects, dialectEntries]
    | cons fmt b =>
      rw [smb1Dialects]
      constructor
      · intro h
        by_cases hfmt : fmt = 0x02
        · rw [if_neg (not_not.2 hfmt)] at h
          split at h
          · exact absurd h (by simp)
          · rename_i name rest hnul
            obtain ⟨rfl, hname⟩ := untilNul_eq_some.1 hnul
            have hrest : rest.length ≤ fuel := by
              simp only [List.length_cons, List.length_append] at hfuel
              omega
            by_cases hcap : 64 < n + 1
            · rw [if_pos hcap] at h
              exact absurd h (by simp)
            · rw [if_neg hcap] at h
              obtain ⟨more, hmore, rfl⟩ := Option.map_eq_some_iff.1 h
              obtain ⟨rfl, hfree, hlen⟩ := (ih hrest (by omega)).1 hmore
              refine ⟨by simp [dialectEntries, hfmt], ?_, by simp only [List.length_cons]; omega⟩
              intro x hx
              rcases List.mem_cons.1 hx with rfl | hx
              · exact hname
              · exact hfree x hx
        · rw [if_pos hfmt] at h
          exact absurd h (by simp)
      · rintro ⟨hb, hfree, hlen⟩
        cases names with
        | nil => exact absurd hb (by simp [dialectEntries])
        | cons name names =>
          rw [dialectEntries, List.flatMap_cons, List.cons_append, List.append_assoc,
            List.singleton_append] at hb
          obtain ⟨rfl, rfl⟩ := List.cons.inj hb
          rw [List.length_cons] at hlen
          have hnul : untilNul (name ++ 0 :: dialectEntries names) =
              some (name, dialectEntries names) :=
            untilNul_eq_some.2 ⟨rfl, hfree name (by simp)⟩
          have hrest : (dialectEntries names).length ≤ fuel := by
            simp only [List.length_cons, List.length_append, dialectEntries] at hfuel ⊢
            omega
          have hmore : smb1Dialects fuel (dialectEntries names) (n + 1) = some names :=
            (ih hrest (by omega)).2 ⟨rfl, fun x hx => hfree x (by simp [hx]), by omega⟩
          rw [if_neg (by simp), show untilNul (name ++ 0 :: names.flatMap _) = _ from hnul]
          dsimp only
          rw [if_neg (by omega), hmore]
          rfl

/-! ### The parser and the grammar -/

/-- The dialect strings of an SMB1 NEGOTIATE request, decoded. -/
def smb1DialectNames (frame : Bytes) : Option (List Str) :=
  (smb1NegotiateDialects frame).map (·.map fromUtf8Lossy)

/-- Where the ByteCount field stands: after the WordCount and its words. -/
def byteCountOff (frame : Bytes) : ℕ := 33 + 2 * (frame.getD 32 0).toNat

/-- An SMB1 NEGOTIATE frame whose ByteCount field is present, with the bytes `count`. -/
structure Smb1Negotiate (frame count : Bytes) : Prop where
  long : 35 ≤ frame.length
  proto : frame.take 4 = smb1ProtoId
  command : frame[4]? = some smb1ComNegotiate
  count : slice frame (byteCountOff frame) (byteCountOff frame + 2) = some count

/-- Those of the ByteCount bytes that are present. -/
def dialectBytes (frame count : Bytes) : Bytes :=
  (frame.drop (byteCountOff frame + 2)).take (leNat count)

theorem smb1NegotiateDialects_eq {frame count : Bytes} (h : Smb1Negotiate frame count) :
    smb1NegotiateDialects frame =
      smb1Dialects (dialectBytes frame count).length (dialectBytes frame count) 0 := by
  have hhead : ¬ (frame.length < 35 ∨ frame.take 4 ≠ smb1ProtoId ∨
      frame[4]? ≠ some smb1ComNegotiate) := by
    have := h.long
    simp only [h.proto, h.command, ne_eq, not_true, or_false]
    omega
  have hcount := h.count
  unfold byteCountOff at hcount
  rw [smb1NegotiateDialects, if_neg hhead]
  dsimp only
  rw [hcount]
  rfl

/-- **The dialect parser accepts exactly its grammar.**  The result is `some` exactly when the
ByteCount bytes that are present are the entries of at most 64 NUL-free names, and it is then these
names, decoded, in order; a list of at most 64 NUL-free ASCII names comes back as it was written. -/
theorem smb1DialectNames_eq_some {frame count : Bytes} (h : Smb1Negotiate frame count) :
    (∀ names : List Str, smb1DialectNames frame = some names ↔
      ∃ raw : List Bytes, raw.length ≤ 64 ∧ (∀ x ∈ raw, 0 ∉ x) ∧
        dialectBytes frame count = dialectEntries raw ∧ names = raw.map fromUtf8Lossy) ∧
    ∀ names : List Str, names.length ≤ 64 →
      (∀ s ∈ names, ∀ c ∈ s, 0 < c.toNat ∧ c.toNat < 0x80) →
        dialectBytes frame count = dialectEntries (names.map asciiBytes) →
          smb1DialectNames frame = some names := by
  have hgrammar : ∀ names : List Str, smb1DialectNames frame = some names ↔
      ∃ raw : List Bytes, raw.length ≤ 64 ∧ (∀ x ∈ raw, 0 ∉ x) ∧
        dialectBytes frame count = dialectEntries raw ∧ names = raw.map fromUtf8Lossy := by
    intro names
    rw [smb1DialectNames, smb1NegotiateDialects_eq h, Option.map_eq_some_iff]
    constructor
    · rintro ⟨raw, hraw, rfl⟩
      obtain ⟨hbytes, hfree, hlen⟩ := (smb1Dialects_eq_some le_rfl (by omega)).1 hraw
      exact ⟨raw, by omega, hfree, hbytes, rfl⟩
    · rintro ⟨raw, hlen, hfree, hbytes, rfl⟩
      exact ⟨raw, (smb1Dialects_eq_some le_rfl (by omega)).2 ⟨hbytes, hfree, by omega⟩, rfl⟩
  refine ⟨hgrammar, fun names hlen hascii hbytes => ?_⟩
  refine (hgrammar names).2 ⟨names.map asciiBytes, by rwa [List.length_map], ?_, hbytes, ?_⟩
  · intro x hx hzero
    obtain ⟨s, hs, rfl⟩ := List.mem_map.1 hx
    obtain ⟨c, hc, hc0⟩ := List.mem_map.1 hzero
    have hbounds := hascii s hs c hc
    have hbyte := congrArg UInt8.toNat hc0
    rw [UInt8.toNat_ofNat', Nat.mod_eq_of_lt (by omega)] at hbyte
    change c.toNat = 0 at hbyte
    omega
  · have hid : ∀ s ∈ names, fromUtf8Lossy (asciiBytes s) = s := fun s hs =>
      (fromUtf8Lossy_eq_ascii fun c hc => (hascii s hs c hc).2).2 rfl
    rw [List.map_map]
    exact (List.map_id names).symm.trans (List.map_congr_left fun s hs => (hid s hs).symm)

/-- A frame that offers SMB2 next to an old dialect, with two parameter words before the list. -/
theorem smb1DialectNames_eq_some_offer :
    smb1DialectNames (smb1ProtoId ++ [smb1ComNegotiate] ++ zeros 27 ++ [2, 0, 0, 0, 0, 23, 0] ++
      dialectEntries [asciiBytes (lit "NT LM 0.12"), asciiBytes (lit "SMB 2.002")]) =
        some [lit "NT LM 0.12", lit "SMB 2.002"] :=
  (smb1DialectNames_eq_some (show Smb1Negotiate _ [23, 0] from
    ⟨by decide +kernel, by decide +kernel, by decide +kernel, by decide +kernel⟩)).2 _
      (by decide) (by simp [lit]) (by decide +kernel)

/-- The upgrade to SMB2 is decided by the decoded names. -/
theorem smb1OffersSmb2_iff (raw : List Bytes) :
    smb1OffersSmb2 raw = true ↔
      lit "SMB 2.002" ∈ raw.map fromUtf8Lossy ∨ lit "SMB 2.???" ∈ raw.map fromUtf8Lossy := by
  have hexact : IsAscii (lit "SMB 2.002") := by simp [IsAscii, lit]
  have hany : IsAscii (lit "SMB 2.???") := by simp [IsAscii, lit]
  simp only [smb1OffersSmb2, List.any_eq_true, decide_eq_true_eq, List.mem_map,
    fromUtf8Lossy_eq_ascii hexact, fromUtf8Lossy_eq_ascii hany]
  constructor
  · rintro ⟨x, hx, rfl | rfl⟩
    · exact .inl ⟨_, hx, rfl⟩
    · exact .inr ⟨_, hx, rfl⟩
  · rintro (⟨x, hx, rfl⟩ | ⟨x, hx, rfl⟩)
    · exact ⟨_, hx, .inl rfl⟩
    · exact ⟨_, hx, .inr rfl⟩

end RocketSmbd
