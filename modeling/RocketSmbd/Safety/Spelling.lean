import Mathlib.Data.List.DropRight
import RocketSmbd.Sample
import RocketSmbd.Validate

/-!
# Authorization and the spelling of a user name

Authentication finds a `[[user]]` by the Unicode lower case of the name that the client sends, and
the session records the name as it was sent.  Authorization compares that name with the share lists
up to the case of its ASCII letters.  Two spellings of one user are thus told apart as soon as they
differ in more than ASCII case, provided that a share list can name the user at all: a list entry is
trimmed and is a bare name only without `\` and `@`.
-/

namespace RocketSmbd

open ByteString

namespace Authz

variable {u : Str}

/-- The identity of a session that authenticated with NTLM as `u`. -/
def Who.ntlm (u : Str) : Who := ⟨false, u, false, none⟩

/-- A list entry that is a bare name can match the user. -/
def nameable (u : Str) : Prop := u ≠ [] ∧ trim u = u ∧ '\\' ∉ u ∧ '@' ∉ u

instance (u : Str) : Decidable (nameable u) := inferInstanceAs (Decidable (_ ∧ _ ∧ _ ∧ _))

/-! ### The parts of a name -/

theorem splitOnce_eq_none {p : Char → Bool} {s : Str} :
    splitOnce p s = none ↔ ∀ c ∈ s, p c = false := by
  induction s with
  | nil => simp [splitOnce]
  | cons c s ih =>
    by_cases hc : p c = true
    · simp [splitOnce, hc]
    · simp [splitOnce, hc, ih]

theorem rsplitOnce_eq_none {p : Char → Bool} {s : Str} :
    rsplitOnce p s = none ↔ ∀ c ∈ s, p c = false := by
  simp [rsplitOnce, splitOnce_eq_none]

theorem trim_suffix (s : Str) : (trim s).reverse <:+ (s.dropWhile isWhite).reverse := by
  rw [trim, List.reverse_reverse]
  exact List.dropWhile_suffix isWhite

theorem trim_sublist (s : Str) : (trim s).Sublist s := by
  have hinner : (trim s).Sublist (s.dropWhile isWhite) :=
    List.reverse_sublist.1 (trim_suffix s).sublist
  exact hinner.trans (List.dropWhile_sublist isWhite)

theorem trim_trim (s : Str) : trim (trim s) = trim s := by
  -- what is left of `s.dropWhile isWhite` still starts with its first character
  have hfront : (trim s).dropWhile isWhite = trim s := by
    rw [List.dropWhile_eq_self_iff]
    intro hpos
    obtain ⟨tail, htail⟩ := List.reverse_suffix.1 (by simpa using trim_suffix s)
    have hlen : 0 < (s.dropWhile isWhite).length := by rw [← htail]; simp; omega
    have hhead : (trim s)[0] = (s.dropWhile isWhite)[0] := by
      simp only [← htail, List.getElem_append_left hpos]
    rw [hhead]
    exact List.dropWhile_get_zero_not isWhite s hlen
  unfold trim at hfront ⊢
  rw [hfront, List.reverse_reverse, List.dropWhile_idempotent]

/-! ### ASCII case -/

/-- A capital letter moves up by 32, every other character stays. -/
theorem asciiLower_cases (c : Char) :
    asciiLower c = c ∨ 65 ≤ c.toNat ∧ c.toNat ≤ 90 ∧ (asciiLower c).toNat = c.toNat + 32 := by
  unfold asciiLower
  split_ifs with hc
  · obtain ⟨hlow, hhigh⟩ := hc
    have hlow : 65 ≤ c.toNat := hlow
    have hhigh : c.toNat ≤ 90 := hhigh
    have hvalid : (c.toNat + 32).isValidChar := by
      left
      omega
    refine .inr ⟨hlow, hhigh, ?_⟩
    rw [Char.ofNat, dif_pos hvalid]
    rfl
  · exact .inl rfl

theorem isWhite_asciiLower (c : Char) : isWhite (asciiLower c) = isWhite c := by
  rcases asciiLower_cases c with hc | ⟨hlow, hhigh, hc⟩
  · rw [hc]
  · -- neither the letter nor its lower case is white space
    have hplain : ∀ n, 65 ≤ n → n ≤ 122 → ∀ d : Char, d.toNat = n → isWhite d = false := by
      intro n h65 h122 d hd
      simp only [isWhite, hd, Bool.or_eq_false_iff, Bool.and_eq_false_iff, decide_eq_false_iff_not,
        beq_eq_false_iff_ne]
      omega
    rw [hplain _ (by omega) (by omega) _ hc, hplain _ hlow (by omega) _ rfl]

/-- A character that is neither a capital letter nor a small one is not reached from another. -/
theorem asciiLower_eq_iff {c d : Char} (hd : d.toNat < 65 ∨ 90 < d.toNat ∧ d.toNat < 97) :
    asciiLower c = d ↔ c = d := by
  rcases asciiLower_cases c with hc | ⟨hlow, hhigh, hc⟩
  · rw [hc]
  · constructor
    · rintro rfl
      omega
    · rintro rfl
      omega

theorem mem_map_asciiLower {d : Char} (hd : d.toNat < 65 ∨ 90 < d.toNat ∧ d.toNat < 97) :
    d ∈ u.map asciiLower ↔ d ∈ u := by
  simp [List.mem_map, asciiLower_eq_iff hd]

theorem trim_map_asciiLower (u : Str) : trim (u.map asciiLower) = (trim u).map asciiLower := by
  have hcomp : isWhite ∘ asciiLower = isWhite := funext isWhite_asciiLower
  simp [trim, List.dropWhile_map, ← List.map_reverse, hcomp]

theorem eqIgnoreAsciiCase_iff {s t : Str} :
    eqIgnoreAsciiCase s t = true ↔ s.map asciiLower = t.map asciiLower := beq_iff_eq

theorem eqIgnoreAsciiCase_comm (s t : Str) : eqIgnoreAsciiCase s t = eqIgnoreAsciiCase t s := by
  rw [Bool.eq_iff_iff, eqIgnoreAsciiCase_iff, eqIgnoreAsciiCase_iff, eq_comm]

/-- Being nameable does not depend on ASCII case. -/
theorem nameable_congr {u n : Str} (h : u.map asciiLower = n.map asciiLower) (hn : nameable n) :
    nameable u := by
  obtain ⟨hne, htrim, hback, hat⟩ := hn
  refine ⟨?_, ?_, ?_, ?_⟩
  · rintro rfl
    exact hne (List.map_eq_nil_iff.1 h.symm)
  · have hmap : (trim u).map asciiLower = u.map asciiLower := by
      rw [← trim_map_asciiLower, h, trim_map_asciiLower, htrim]
    exact (trim_sublist u).eq_of_length (by simpa using congrArg List.length hmap)
  · rwa [← mem_map_asciiLower (by decide), h, mem_map_asciiLower (by decide)]
  · rwa [← mem_map_asciiLower (by decide), h, mem_map_asciiLower (by decide)]

/-! ### What a list entry can say about an NTLM session -/

theorem parse_nameable (hu : nameable u) : UserPat.parse u = .ok (.bare u) := by
  obtain ⟨hne, htrim, hback, hat⟩ := hu
  have hsplit : splitOnce (· = '\\') u = none := by
    rw [splitOnce_eq_none]
    rintro c hc
    simpa using fun h : c = '\\' => hback (h ▸ hc)
  have hrsplit : rsplitOnce (· = '@') u = none := by
    rw [rsplitOnce_eq_none]
    rintro c hc
    simpa using fun h : c = '@' => hat (h ▸ hc)
  simp [UserPat.parse, htrim, hne, hsplit, hrsplit]

/-- A bare name that parses is nameable. -/
theorem nameable_of_parse {s n : Str} (h : UserPat.parse s = .ok (.bare n)) : nameable n := by
  unfold UserPat.parse at h
  dsimp only at h
  split_ifs at h with hempty
  split at h
  · split_ifs at h
    cases h
  · rename_i hsplit
    split at h
    · split_ifs at h
      cases h
    · rename_i hrsplit
      cases h
      refine ⟨by simpa using hempty, trim_trim s, fun hmem => ?_, fun hmem => ?_⟩
      · simpa using splitOnce_eq_none.1 hsplit _ hmem
      · simpa using rsplitOnce_eq_none.1 hrsplit _ hmem

variable (cfg : Config)

/-- A pattern matches an NTLM session if it is the user's name up to ASCII case. -/
theorem userMatches_ntlm (p : UserPat) (u : Str) :
    userMatches p (.ntlm u) cfg = true ↔
      u ≠ [] ∧ ∃ n, p = .bare n ∧ u.map asciiLower = n.map asciiLower := by
  unfold userMatches Who.ntlm
  cases p with
  | bare n => simp [eqIgnoreAsciiCase_iff]
  | principal pr => simp
  | domUser domain name => simp

/-- An entry that names a user is a user pattern. -/
theorem parse_of_entry {cfg : Config} {s : Str} {p : UserPat}
    (h : Entry.parse s cfg = .ok (.user p)) : UserPat.parse s = .ok p := by
  have hgroup : ∀ g, Entry.parseGroup g cfg ≠ .ok (.user p) := by
    intro g hg
    unfold Entry.parseGroup at hg
    split at hg
    · cases hg
    · dsimp only at hg
      split at hg <;> cases hg
  unfold Entry.parse at h
  split at h
  · -- an `@` starts a group
    dsimp only at h
    split_ifs at h
    · split at h
      · cases h
      · split_ifs at h
        · split at h <;> cases h
        · exact absurd h (hgroup _)
    · exact absurd h (hgroup _)
  · cases hp : UserPat.parse s with
    | error why => simp [hp, Except.map] at h
    | ok q =>
      rw [hp] at h
      cases h
      rfl

/-- Two users whom the same patterns match have the same access to every share. -/
theorem check_congr {cfg : Config} {u₁ u₂ : Str}
    (h : ∀ s p, UserPat.parse s = .ok p →
      userMatches p (.ntlm u₁) cfg = userMatches p (.ntlm u₂) cfg) (share : ShareCfg) :
    check cfg share (.ntlm u₁) = check cfg share (.ntlm u₂) := by
  have hgroup : ∀ g, groupMatches g (.ntlm u₁) cfg = groupMatches g (.ntlm u₂) cfg := by
    intro g
    unfold groupMatches
    congr 2
    funext m
    cases hm : UserPat.parse m with
    | error why => rfl
    | ok p => exact h m p hm
  have hentry : ∀ s e, Entry.parse s cfg = .ok e →
      entryMatches e (.ntlm u₁) cfg = entryMatches e (.ntlm u₂) cfg := by
    intro s e he
    cases e with
    | user p => exact h s p (parse_of_entry he)
    | groupSid sid => rfl
    | wellKnown domain rid => rfl
    | table i => simp only [entryMatches, hgroup]; rfl
  have hany : ∀ list, anyMatches list (.ntlm u₁) cfg = anyMatches list (.ntlm u₂) cfg := by
    intro list
    unfold anyMatches
    congr 1
    funext s
    cases hs : Entry.parse s cfg with
    | error why => rfl
    | ok e => exact hentry s e hs
  simp only [check, hany]

theorem entryParse_nameable (hu : nameable u) :
    Entry.parse u cfg = .ok (.user (.bare u)) := by
  unfold Entry.parse
  rw [hu.2.1, parse_nameable hu]
  split
  · exact absurd List.mem_cons_self hu.2.2.2
  · rfl

theorem anyMatches_nameable (hu : nameable u) (v : Str) :
    anyMatches [u] (.ntlm v) cfg = eqIgnoreAsciiCase v u := by
  have hentry : anyMatches [u] (.ntlm v) cfg = userMatches (.bare u) (.ntlm v) cfg := by
    simp [anyMatches, entryParse_nameable cfg hu, entryMatches, Who.ntlm]
  rw [hentry, Bool.eq_iff_iff, userMatches_ntlm, eqIgnoreAsciiCase_iff]
  constructor
  · rintro ⟨-, n, hn, hv⟩
    cases hn
    exact hv
  · intro hv
    exact ⟨(nameable_congr hv hu).1, u, rfl, hv⟩

/-! ### The share that tells two spellings apart -/

/-- The share that only keeps out the user `u`. -/
def shareWithout (u : Str) (path : Path) : ShareCfg :=
  { name := ['s'], path, readOnly := false, validUsers := [], invalidUsers := [u]
    readOnlyUsers := [] }

theorem validateShare_without (hu : nameable u) (path : Path) :
    validateShare cfg (shareWithout u path) = .ok () := by
  simp [validateShare, shareWithout, checkAll, checkParse, entryParse_nameable cfg hu, seq_eq_ok]

/-- It lets in every user whose name differs from `u` in more than ASCII case. -/
theorem check_without (hu : nameable u) (path : Path) (v : Str) :
    check cfg (shareWithout u path) (.ntlm v) =
      if eqIgnoreAsciiCase v u then .denied else .readWrite := by
  have hno : anyMatches [] (.ntlm v) cfg = false := rfl
  simp [check, shareWithout, anyMatches_nameable cfg hu, hno]

/-- If the user `u` can be named and `v` is not the name `u` up to ASCII case, then some accepted
configuration has a share that keeps out `u` and lets in `v`. -/
theorem exists_share_apart {e : LoadEnv} {cfg : Config} (hcfg : cfg.validate e = .ok ()) {u v : Str}
    (hu : nameable u) (huv : eqIgnoreAsciiCase v u = false) :
    ∃ cfg' : Config, cfg'.validate e = .ok () ∧ ∃ share ∈ cfg'.shares,
      check cfg' share (.ntlm u) ≠ check cfg' share (.ntlm v) := by
  obtain ⟨path, hpath⟩ := Config.exists_isDir hcfg
  refine ⟨{ cfg with shares := [shareWithout u path] }, ?_, shareWithout u path, by simp, ?_⟩
  · exact Config.validate_withShare hcfg rfl hpath (validateShare_without _ hu path)
  · have hself : eqIgnoreAsciiCase u u = true := eqIgnoreAsciiCase_iff.2 rfl
    simp [check_without _ hu, huv, hself]

/-- **Which spellings authorization tells apart.**  Two user names have the same access to every
share of every accepted configuration if and only if they differ in the case of ASCII letters only,
or no list entry can name either.  The Unicode lower case, by which both authenticate as one user,
plays no part. -/
theorem check_spelling_iff (e : LoadEnv) (hany : ∃ cfg : Config, cfg.validate e = .ok ())
    (u₁ u₂ : Str) :
    (∀ cfg : Config, cfg.validate e = .ok () → ∀ share ∈ cfg.shares,
      check cfg share (.ntlm u₁) = check cfg share (.ntlm u₂)) ↔
    eqIgnoreAsciiCase u₁ u₂ = true ∨ ¬ nameable u₁ ∧ ¬ nameable u₂ := by
  obtain ⟨cfg₀, hcfg₀⟩ := hany
  constructor
  · intro hsame
    by_contra hcon
    rw [not_or, not_and_or, not_not, not_not, Bool.not_eq_true] at hcon
    obtain ⟨hne, hname | hname⟩ := hcon
    · have hne' : eqIgnoreAsciiCase u₂ u₁ = false := by rwa [eqIgnoreAsciiCase_comm]
      obtain ⟨cfg, hcfg, share, hshare, hcheck⟩ := exists_share_apart hcfg₀ hname hne'
      exact hcheck (hsame cfg hcfg share hshare)
    · obtain ⟨cfg, hcfg, share, hshare, hcheck⟩ := exists_share_apart hcfg₀ hname hne
      exact hcheck (hsame cfg hcfg share hshare).symm
  · intro hcond cfg hcfg share hshare
    refine check_congr (fun s p hp => ?_) share
    rw [Bool.eq_iff_iff, userMatches_ntlm, userMatches_ntlm]
    rcases hcond with hfold | ⟨hno₁, hno₂⟩
    · have hfold := eqIgnoreAsciiCase_iff.1 hfold
      have hempty : u₁ = [] ↔ u₂ = [] := by
        rw [← List.map_eq_nil_iff (f := asciiLower), hfold, List.map_eq_nil_iff]
      simp only [ne_eq, hempty, hfold]
    · -- a bare name that parses can be named, and so can everything equal to it up to case
      constructor
      · rintro ⟨-, n, rfl, hn⟩
        exact absurd (nameable_congr hn (nameable_of_parse hp)) hno₁
      · rintro ⟨-, n, rfl, hn⟩
        exact absurd (nameable_congr hn (nameable_of_parse hp)) hno₂

end Authz

/-! ### The Kelvin sign -/

namespace Sample

/-- U+212A, whose lower case is the letter `k`. -/
def kelvin : Str := ['\u212A']

/-- Loading where every text is an address and every path a directory; of the Unicode tables only
ASCII and the Kelvin sign matter here. -/
def loadEnv : LoadEnv where
  isSocketAddr _ := true
  isDir _ := true
  toLowercase s := s.map fun c => if c = '\u212A' then 'k' else asciiLower c
  ntHash _ := zeros 16

/-- One user, `k`, whom the only share keeps out. -/
def cfgWithoutK : Config :=
  { cfg false false with
    shares := [Authz.shareWithout ['k'] []], users := [⟨['k'], some ['p'], none⟩] }

def srvWithoutK : Srv Disk :=
  { srv false false with
    cfg := cfgWithoutK, users := cfgWithoutK.userDb loadEnv, allowGuest := false
    env := { env with toLowercase := loadEnv.toLowercase } }

/-- The session of a client that logs in under `name` and connects to the share. -/
def sessionAs (name : Str) : Option SessionInner :=
  ((World.start 1 {}).run srvWithoutK (askChallenge ++
    [.frame conn (setupReq 0 2 2 (ntlmAnswerAs name (leBytes 8 3))),
      .frame conn (treeReq 0 0 3 2)])).shared.sessions.lookup 2

end Sample

open Sample in
/-- The user `k` logs in under the Kelvin sign and gets into the share that keeps out `k`. -/
theorem check_spelling_kelvin :
    cfgWithoutK.validate loadEnv = .ok () ∧
      loadEnv.toLowercase kelvin = loadEnv.toLowercase ['k'] ∧
      (∀ share ∈ cfgWithoutK.shares, Authz.check cfgWithoutK share (.ntlm ['k']) = .denied ∧
        Authz.check cfgWithoutK share (.ntlm kelvin) = .readWrite) ∧
      (∃ s ∈ sessionAs ['k'], s.established ∧ s.user = ['k'] ∧ s.trees.keys = []) ∧
      ∃ s ∈ sessionAs kelvin, s.established ∧ s.user = kelvin ∧ s.trees.keys ≠ [] := by
  refine ⟨rfl, by decide, by decide, by decide +kernel, by decide +kernel⟩

open Sample in
/-- A capital letter makes no difference. -/
theorem check_spelling_iff_capital :
    Authz.check cfgWithoutK (Authz.shareWithout ['k'] []) (.ntlm ['k']) =
      Authz.check cfgWithoutK (Authz.shareWithout ['k'] []) (.ntlm ['K']) :=
  (Authz.check_spelling_iff loadEnv ⟨cfgWithoutK, rfl⟩ ['k'] ['K']).2 (.inl (by decide))
    cfgWithoutK rfl _ (by simp [cfgWithoutK])

end RocketSmbd
