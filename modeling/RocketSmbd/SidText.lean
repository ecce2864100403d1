import RocketSmbd.Authz

/-!
# The text form of security identifiers (`pac.rs`)

`Sid.display` is the `S-1-5-21-…` text that `Display` writes.  It splits at its dashes into the
decimal texts it was written from, so `Sid.parse` reads it back and two identifiers are the same
exactly when their texts are.
-/

namespace RocketSmbd

/-- `{n}` of an unsigned number: its decimal digits, without leading zeros. -/
def decimalText (n : ℕ) : Str := Nat.toDigits 10 n

/-- `Display for Sid`. -/
def Sid.display (s : Sid) : Str :=
  ['S', '-'] ++ decimalText s.revision.toNat ++ '-' :: decimalText s.authority.toNat ++
    s.sub.flatMap fun n => '-' :: decimalText n.toNat

/-! ### Decimal numbers -/

theorem isDigit_bounds {c : Char} (h : c.isDigit) : '0' ≤ c ∧ c ≤ '9' := by
  rw [Char.isDigit, Bool.and_eq_true, decide_eq_true_eq, decide_eq_true_eq] at h
  exact h

theorem isDigit_of_mem_decimalText {c : Char} {n : ℕ} (h : c ∈ decimalText n) : c.isDigit :=
  Nat.isDigit_of_mem_toDigits (by decide) (by decide) h

/-- A dash is no digit. -/
theorem dash_notMem_decimalText (n : ℕ) : ∀ c ∈ decimalText n, ¬ (c = '-') := by
  rintro c hc rfl
  exact absurd (isDigit_of_mem_decimalText hc) (by decide)

/-- Digits are read as the number they denote. -/
theorem foldl_digits {s : Str} (h : ∀ c ∈ s, c.isDigit) (acc : ℕ) :
    s.foldl (fun acc c => acc.bind fun n => if '0' ≤ c ∧ c ≤ '9' then
      some (n * 10 + (c.toNat - 48)) else none) (some acc) = some (Nat.ofDigitChars 10 s acc) := by
  induction s generalizing acc with
  | nil => rfl
  | cons c s ih =>
    have hc : '0' ≤ c ∧ c ≤ '9' := isDigit_bounds (h c (by simp))
    have hs : ∀ d ∈ s, d.isDigit := fun d hd => h d (by simp [hd])
    rw [List.foldl_cons, Option.bind_some, if_pos hc, ih hs, Nat.ofDigitChars, Nat.ofDigitChars,
      List.foldl_cons, Nat.mul_comm acc 10]
    rfl

theorem decimal_decimalText (n : ℕ) : decimal (decimalText n) = some n := by
  have hdigits : ∀ c ∈ decimalText n, c.isDigit := fun c hc => isDigit_of_mem_decimalText hc
  have hvalue : Nat.ofDigitChars 10 (decimalText n) 0 = n :=
    Nat.ofDigitChars_toDigits (by decide) (by decide)
  have hread := foldl_digits hdigits 0
  rw [hvalue] at hread
  cases htext : decimalText n with
  | nil => exact absurd htext Nat.toDigits_ne_nil
  | cons c s =>
    rw [htext] at hread
    exact hread

theorem decimalText_injective : Function.Injective decimalText := by
  intro a b h
  have hvalue := congrArg decimal h
  rw [decimal_decimalText, decimal_decimalText] at hvalue
  exact Option.some.inj hvalue

/-- `str::parse` reads back what was written, below the bound of the type. -/
theorem parseUnsigned_decimalText {bound n : ℕ} (h : n < bound) :
    parseUnsigned bound (decimalText n) = some n := by
  -- a digit is no sign, so all of the text is digits
  have hsign : ∀ s : Str, decimalText n ≠ '+' :: s := by
    intro s hs
    have hplus : '+' ∈ decimalText n := by simp [hs]
    exact absurd (isDigit_of_mem_decimalText hplus) (by decide)
  unfold parseUnsigned
  split
  · rename_i s hs
    exact absurd hs (hsign s)
  · dsimp only
    rw [decimal_decimalText, Option.bind_some, if_pos h]

/-! ### Parts between separators -/

section Split

variable {p : Char → Bool}

/-- A part without separators before a text is put in front of its first part. -/
theorem splitOn_append {w s : Str} {u : Str} {us : List Str} (hw : ∀ c ∈ w, ¬ p c)
    (hs : splitOn p s = u :: us) : splitOn p (w ++ s) = (w ++ u) :: us := by
  induction w with
  | nil => exact hs
  | cons c w ih =>
    have hc : ¬ p c := hw c (by simp)
    rw [List.cons_append, splitOn, if_neg hc, ih fun d hd => hw d (by simp [hd])]
    rfl

/-- A part without separators, then parts that each start with one. -/
theorem splitOn_parts {c : Char} (hc : p c) {w : Str} (hw : ∀ d ∈ w, ¬ p d) {ws : List Str}
    (hws : ∀ v ∈ ws, ∀ d ∈ v, ¬ p d) :
    splitOn p (w ++ ws.flatMap fun v => c :: v) = w :: ws := by
  induction ws generalizing w with
  | nil =>
    have hnil : splitOn p [] = [[]] := rfl
    rw [List.flatMap_nil, splitOn_append hw hnil, List.append_nil]
  | cons v ws ih =>
    have hv : splitOn p (v ++ ws.flatMap fun v => c :: v) = v :: ws :=
      ih (hws v (by simp)) fun x hx => hws x (by simp [hx])
    have hstart : splitOn p (c :: (v ++ ws.flatMap fun v => c :: v)) = [] :: v :: ws := by
      rw [splitOn, if_pos hc, hv]
    rw [List.flatMap_cons, List.cons_append, splitOn_append hw hstart, List.append_nil]

end Split

namespace Sid

/-- The decimal texts of an identifier. -/
def texts (s : Sid) : List Str :=
  decimalText s.revision.toNat :: decimalText s.authority.toNat ::
    s.sub.map fun n => decimalText n.toNat

theorem display_eq (s : Sid) : s.display = ['S'] ++ s.texts.flatMap fun v => '-' :: v := by
  simp [display, texts, List.flatMap_map]

theorem splitOn_display (s : Sid) : splitOn (· = '-') s.display = ['S'] :: s.texts := by
  rw [display_eq]
  refine splitOn_parts (by decide) (by simp) ?_
  intro v hv c hc
  rw [decide_eq_true_eq]
  simp only [texts, List.mem_cons, List.mem_map] at hv
  rcases hv with rfl | rfl | ⟨n, -, rfl⟩ <;> exact dash_notMem_decimalText _ c hc

/-- Different identifiers have different texts. -/
theorem display_injective : Function.Injective display := by
  rintro ⟨ra, aa, sa⟩ ⟨rb, ab, sb⟩ h
  have htexts := congrArg (splitOn (· = '-')) h
  rw [splitOn_display, splitOn_display] at htexts
  have hnums : Function.Injective fun n : UInt32 => decimalText n.toNat := fun m n hmn =>
    UInt32.toNat_inj.1 (decimalText_injective hmn)
  simp only [texts, List.cons.injEq, true_and] at htexts
  obtain ⟨hrev, hauth, hsub⟩ := htexts
  rw [UInt8.toNat_inj.1 (decimalText_injective hrev),
    UInt64.toNat_inj.1 (decimalText_injective hauth), hnums.list_map hsub]

/-! ### Reading the text back -/

/-- What `Sid::parse` can return. -/
structure Parsed (s : Sid) : Prop where
  revision : s.revision = 1
  authority : s.authority.toNat < 2 ^ 48
  nonempty : 1 ≤ s.sub.length
  bounded : s.sub.length ≤ maxSubauth

theorem mapM_decimalText (sub : List UInt32) :
    (sub.map fun n => decimalText n.toNat).mapM (parseUnsigned (2 ^ 32)) =
      some (sub.map UInt32.toNat) := by
  induction sub with
  | nil => rfl
  | cons n sub ih =>
    rw [List.map_cons, List.mapM_cons, ih, parseUnsigned_decimalText n.toNat_lt]
    rfl

/-- What a text that is accepted consists of. -/
theorem parse_eq_some {t : Str} {s : Sid} :
    parse t = some s ↔ ∃ head rev auth rest a sub,
      splitOn (· = '-') t = head :: rev :: auth :: rest ∧ eqIgnoreAsciiCase head ['S'] ∧
        parseUnsigned (2 ^ 8) rev = some 1 ∧ parseUnsigned (2 ^ 64) auth = some a ∧ a < 2 ^ 48 ∧
        rest.mapM (parseUnsigned (2 ^ 32)) = some sub ∧ 1 ≤ sub.length ∧
        sub.length ≤ maxSubauth ∧ s = ⟨1, UInt64.ofNat a, sub.map UInt32.ofNat⟩ := by
  unfold parse
  constructor
  · intro h
    split at h
    · rename_i head rev auth rest heq
      dsimp only at h
      by_cases hhead : eqIgnoreAsciiCase head ['S']
      · rw [if_neg (not_not.2 hhead)] at h
        obtain ⟨r, hr, h⟩ := Option.bind_eq_some_iff.1 h
        obtain ⟨a, ha, h⟩ := Option.bind_eq_some_iff.1 h
        by_cases hra : r ≠ 1 ∨ 2 ^ 48 ≤ a
        · rw [if_pos hra] at h
          exact absurd h (by simp)
        · rw [if_neg hra] at h
          obtain ⟨sub, hsub, h⟩ := Option.bind_eq_some_iff.1 h
          by_cases hcount : sub.isEmpty ∨ maxSubauth < sub.length
          · rw [if_pos hcount] at h
            exact absurd h (by simp)
          · rw [if_neg hcount] at h
            rw [List.isEmpty_iff_length_eq_zero] at hcount
            obtain rfl : r = 1 := by omega
            exact ⟨head, rev, auth, rest, a, sub, heq, hhead, hr, ha, by omega, hsub, by omega,
              by omega, (Option.some.inj h).symm⟩
      · rw [if_pos hhead] at h
        exact absurd h (by simp)
    · exact absurd h (by simp)
  · rintro ⟨head, rev, auth, rest, a, sub, heq, hhead, hr, ha, hlt, hsub, hne, hle, rfl⟩
    have hra : ¬ ((1 : ℕ) ≠ 1 ∨ 2 ^ 48 ≤ a) := by omega
    have hcount : ¬ (sub.isEmpty ∨ maxSubauth < sub.length) := by
      rw [List.isEmpty_iff_length_eq_zero]
      omega
    rw [heq]
    simp only [hhead, not_true, if_false, hr, ha, hsub, Option.bind_eq_bind, Option.bind_some,
      if_neg hra, if_neg hcount]
    rfl

theorem parse_display {s : Sid} (h : s.Parsed) : parse s.display = some s := by
  obtain ⟨rev, auth, sub⟩ := s
  obtain ⟨rfl, hauth, hne, hle⟩ := h
  refine parse_eq_some.2 ⟨['S'], _, _, _, auth.toNat, sub.map UInt32.toNat, splitOn_display _,
    by decide, parseUnsigned_decimalText (show 1 < 2 ^ 8 by decide),
    parseUnsigned_decimalText auth.toNat_lt,
    hauth, mapM_decimalText sub, ?_, ?_, ?_⟩
  · rwa [List.length_map]
  · rwa [List.length_map]
  · simp [Function.comp_def]

theorem parsed_of_parse {t : Str} {s : Sid} (h : parse t = some s) : s.Parsed := by
  obtain ⟨_, _, _, _, a, sub, -, -, -, -, ha, -, hne, hle, rfl⟩ := parse_eq_some.1 h
  refine ⟨rfl, ?_, ?_, ?_⟩
  · change (UInt64.ofNat a).toNat < 2 ^ 48
    rwa [UInt64.toNat_ofNat_of_lt' (show a < 2 ^ 64 by omega)]
  · rwa [List.length_map]
  · rwa [List.length_map]

end Sid

/-- Every security identifier that a session's logon information carries. -/
def LogonInfo.sids (l : LogonInfo) : List Sid := l.userSid.toList ++ l.groups

theorem LogonInfo.hasSid_iff (l : LogonInfo) (s : Sid) :
    l.hasSid s = true ↔ ∃ g ∈ l.sids, g.display = s.display := by
  have hmem : l.hasSid s = true ↔ s ∈ l.sids := by
    rw [LogonInfo.hasSid, LogonInfo.sids, Bool.or_eq_true, beq_iff_eq, List.contains_iff_mem,
      List.mem_append, Option.mem_toList]
  rw [hmem]
  constructor
  · intro hs
    exact ⟨s, hs, rfl⟩
  · rintro ⟨g, hg, heq⟩
    rwa [← Sid.display_injective heq]

/-- **Security identifiers are their texts.**  `Sid::parse` returns exactly the identifiers of
revision 1 with a 48-bit authority and one to fifteen sub-authorities, each of them reads back
from its text, the identifiers of two accepted texts are the same exactly when they display the
same, and a SID in a share list matches a session exactly when its logon information carries a SID
that displays the same. -/
theorem sid_text_roundTrips :
    (∀ s : Sid, (∃ t, Sid.parse t = some s) ↔ s.Parsed) ∧
      (∀ s : Sid, s.Parsed → Sid.parse s.display = some s) ∧
      (∀ (t u : Str) (a b : Sid), Sid.parse t = some a → Sid.parse u = some b →
        (a = b ↔ a.display = b.display)) ∧
      ∀ (t : Str) (s : Sid), Sid.parse t = some s →
        ∀ (who : Authz.Who) (cfg : Config) (l : LogonInfo), who.guest = false →
          who.pac = some l → (Authz.entryMatches (.groupSid s) who cfg = true ↔
            ∃ g ∈ l.sids, g.display = s.display) := by
  refine ⟨fun s => ⟨?_, fun h => ⟨s.display, Sid.parse_display h⟩⟩, fun s h => Sid.parse_display h,
    fun t u a b _ _ => Sid.display_injective.eq_iff.symm, ?_⟩
  · rintro ⟨t, ht⟩
    exact Sid.parsed_of_parse ht
  · intro t s _ who cfg l hguest hpac
    rw [← l.hasSid_iff s]
    simp [Authz.entryMatches, hguest, hpac]

/-- The built-in administrators, from a lower-case text. -/
theorem sid_text_roundTrips_builtin :
    Sid.parse (lit "s-1-5-32-544") = some ⟨1, 5, [32, 544]⟩ ∧
      Sid.parse (Sid.display ⟨1, 5, [32, 544]⟩) = some ⟨1, 5, [32, 544]⟩ :=
  ⟨by decide +kernel, sid_text_roundTrips.2.1 _
    ((sid_text_roundTrips.1 _).1 ⟨lit "s-1-5-32-544", by decide +kernel⟩)⟩

end RocketSmbd
