import RocketSmbd.Validate

/-!
# Where reading a share list stops the program (`authz.rs`)

`Entry::parse` slices the group name of an `@group` entry at its second byte.  The slice is in the
middle of a character exactly when the name is longer than two bytes and its second byte is not the
last of a character; then the program stops, and with it the check of a configuration, or a match,
that comes to the entry.
-/

namespace RocketSmbd

namespace Authz

/-- `str::is_char_boundary`. -/
def isCharBoundary (s : Str) (n : ℕ) : Bool := s.inits.any fun pre => utf8Len pre = n

/-- The group name of an entry is short, or its second byte ends a character. -/
def sliceable (s : Str) : Bool :=
  match trim s with
  | '@' :: g => utf8Len (trim g) ≤ 2 || isCharBoundary (trim g) 2
  | _ => true

/-- The error stands for the end of the program. -/
def ParseErr.Crash : ParseErr → Prop
  | .slicePanic _ => True
  | _ => False

/-- The prefix of two bytes exists if a character ends there. -/
theorem firstTwo_isSome (g : Str) : (firstTwo g).isSome = isCharBoundary g 2 := by
  match g with
  | [] => rfl
  | [a] =>
    by_cases ha : a.utf8Size = 2 <;> simp [firstTwo, isCharBoundary, utf8Len, ha]
  | a :: b :: g =>
    have ha := a.utf8Size_pos
    have hb := b.utf8Size_pos
    by_cases htwo : a.utf8Size = 2
    · simp [firstTwo, isCharBoundary, utf8Len, htwo]
    · by_cases hones : a.utf8Size = 1 ∧ b.utf8Size = 1
      · have hends : isCharBoundary (a :: b :: g) 2 = true :=
          List.any_eq_true.2 ⟨[a, b], by simp, by simp [utf8Len, hones.1, hones.2]⟩
        rw [hends, firstTwo, if_neg htwo, if_pos hones]
        rfl
      · -- every prefix of two characters has more than two bytes
        have hmore : ∀ pre : Str, ¬ a.utf8Size + (b.utf8Size + utf8Len pre) = 2 := by
          intro pre
          omega
        unfold utf8Len at hmore
        simp [firstTwo, isCharBoundary, utf8Len, htwo, hones, hmore]

theorem userPat_not_crash {s : Str} {err : ParseErr} (h : UserPat.parse s = .error err) :
    ¬ err.Crash := by
  unfold UserPat.parse at h
  dsimp only at h
  split_ifs at h
  · obtain rfl := Except.error.inj h
    exact id
  · split at h
    · split_ifs at h
      obtain rfl := Except.error.inj h
      exact id
    · split at h
      · split_ifs at h
        obtain rfl := Except.error.inj h
        exact id
      · exact absurd h (by simp)

theorem parseGroup_not_crash {g : Str} {cfg : Config} {err : ParseErr}
    (h : Entry.parseGroup g cfg = .error err) : ¬ err.Crash := by
  unfold Entry.parseGroup at h
  split at h
  · exact absurd h (by simp)
  · split at h
    split at h
    · exact absurd h (by simp)
    · obtain rfl := Except.error.inj h
      exact id

/-- The result is a value, or an error that the program goes on with. -/
def Returns {A : Type} (r : Except ParseErr A) : Prop := ∀ err, r = .error err → ¬ err.Crash

theorem sliceable_group {s g : Str} (h : trim s = '@' :: g) :
    sliceable s ↔ utf8Len (trim g) ≤ 2 ∨ isCharBoundary (trim g) 2 := by
  rw [sliceable, h]
  change (decide (utf8Len (trim g) ≤ 2) || isCharBoundary (trim g) 2) = true ↔ _
  rw [Bool.or_eq_true, decide_eq_true_eq]

theorem sliceable_user {s : Str} (h : ∀ g, trim s ≠ '@' :: g) : sliceable s := by
  unfold sliceable
  split
  · rename_i g hg
    exact absurd hg (h g)
  · rfl

theorem returns_parse_iff (s : Str) (cfg : Config) : Returns (Entry.parse s cfg) ↔ sliceable s := by
  unfold Entry.parse
  split
  · rename_i g hg
    rw [sliceable_group hg, ← firstTwo_isSome]
    dsimp only
    by_cases hlong : 2 < utf8Len (trim g)
    · rw [if_pos hlong, or_iff_right (by omega)]
      cases htwo : firstTwo (trim g) with
      | none => exact iff_of_false (fun h => h _ rfl trivial) (by simp)
      | some p =>
        refine iff_of_true (fun err h => ?_) rfl
        dsimp only at h
        split_ifs at h
        · split at h
          · exact absurd h (by simp)
          · obtain rfl := Except.error.inj h
            exact id
        · exact parseGroup_not_crash h
    · rw [if_neg hlong]
      exact iff_of_true (fun err => parseGroup_not_crash) (.inl (by omega))
  · rename_i hno
    refine iff_of_true (fun err h => ?_) (sliceable_user hno)
    cases hp : UserPat.parse s with
    | ok p => simp [hp, Except.map] at h
    | error why =>
      rw [hp] at h
      obtain rfl := Except.error.inj h
      exact userPat_not_crash hp

/-! ### Checking a configuration -/

/-- The entry parses. -/
def parses (cfg : Config) (s : Str) : Bool := (Entry.parse s cfg).toOption.isSome

/-- The entries of all share lists, in the order in which they are checked. -/
def entries (cfg : Config) : List Str :=
  cfg.shares.flatMap fun s => s.validUsers ++ s.invalidUsers ++ s.readOnlyUsers

end Authz

/-- The error stands for the end of the program. -/
def ConfigErr.Crash : ConfigErr → Prop
  | .groupMember _ why => why.Crash
  | .shareList _ _ why => why.Crash
  | _ => False

namespace Authz

/-- The check of a configuration comes to an end. -/
def Checks (r : Except ConfigErr Unit) : Prop := ∀ err, r = .error err → ¬ err.Crash

/-- The first entry that does not parse, if there is one, is refused with an error. -/
def FirstSliceable (cfg : Config) (l : List Str) : Prop :=
  ∀ s, l.find? (fun s => ¬ parses cfg s) = some s → sliceable s

/-- What one check of a sequence does: it accepts exactly when every entry parses, and it comes to
an end exactly when the first entry that does not parse is sliceable. -/
structure Reads (cfg : Config) (l : List Str) (r : Except ConfigErr Unit) : Prop where
  accepts : r = .ok () ↔ l.find? (fun s => ¬ parses cfg s) = none
  ends : Checks r ↔ FirstSliceable cfg l

theorem Reads.append {cfg : Config} {l m : List Str} {x : Except ConfigErr Unit}
    {y : Unit → Except ConfigErr Unit} (hx : Reads cfg l x) (hy : Reads cfg m (y ())) :
    Reads cfg (l ++ m) (x >>= y) := by
  obtain ⟨hxa, hxe⟩ := hx
  cases x with
  | error err =>
    -- the first entry that does not parse is in `l`
    obtain ⟨s, hs⟩ : ∃ s, l.find? (fun s => ¬ parses cfg s) = some s :=
      Option.ne_none_iff_exists'.1 fun hnone => absurd (hxa.2 hnone) (by simp)
    have happ : (l ++ m).find? (fun s => ¬ parses cfg s) = some s := by
      rw [List.find?_append, hs]
      rfl
    refine ⟨iff_of_false (by simp [bind, Except.bind]) (by rw [happ]; simp), ?_⟩
    have hsame : FirstSliceable cfg (l ++ m) ↔ FirstSliceable cfg l := by
      rw [FirstSliceable, FirstSliceable, happ, hs]
    rw [hsame]
    exact hxe
  | ok u =>
    have hnone := hxa.1 rfl
    have happ : (l ++ m).find? (fun s => ¬ parses cfg s) = m.find? (fun s => ¬ parses cfg s) := by
      rw [List.find?_append, hnone]
      rfl
    refine ⟨?_, ?_⟩
    · rw [happ]
      exact hy.accepts
    · rw [FirstSliceable, happ]
      exact hy.ends

theorem reads_nil (cfg : Config) : Reads cfg [] (.ok ()) :=
  ⟨by simp, iff_of_true (fun _ h => absurd h (by simp)) fun _ h => absurd h (by simp)⟩

theorem reads_checkAll (cfg : Config) {err : ParseErr → ConfigErr}
    (herr : ∀ why, (err why).Crash ↔ why.Crash) (l : List Str) :
    Reads cfg l (checkAll (Entry.parse · cfg) err l) := by
  induction l with
  | nil => exact reads_nil cfg
  | cons s l ih =>
    have hreturns := returns_parse_iff s cfg
    have hone : Reads cfg [s] (checkParse err (Entry.parse s cfg)) := by
      cases hs : Entry.parse s cfg with
      | ok entry =>
        have hparses : parses cfg s = true := by simp [parses, hs, Except.toOption]
        refine ⟨by simp [checkParse, hparses], iff_of_true (fun _ h => ?_) fun t ht => ?_⟩
        · exact absurd h (by simp [checkParse])
        · exact absurd ht (by simp [hparses])
      | error why =>
        have hparses : parses cfg s = false := by simp [parses, hs, Except.toOption]
        have hfirst : FirstSliceable cfg [s] ↔ sliceable s := by
          simp [FirstSliceable, hparses]
        refine ⟨by simp [checkParse, hparses], ?_⟩
        rw [hfirst, ← hreturns, hs]
        simp only [Checks, Returns, checkParse, Except.error.injEq, forall_eq', herr]
    exact hone.append ih

theorem reads_validateShare (cfg : Config) (s : ShareCfg) :
    Reads cfg (s.validUsers ++ s.invalidUsers ++ s.readOnlyUsers) (validateShare cfg s) := by
  rw [List.append_assoc]
  exact (reads_checkAll cfg (fun _ => Iff.rfl) _).append
    ((reads_checkAll cfg (fun _ => Iff.rfl) _).append (reads_checkAll cfg (fun _ => Iff.rfl) _))

theorem reads_validateShares (cfg : Config) (l : List ShareCfg) :
    Reads cfg (l.flatMap fun s => s.validUsers ++ s.invalidUsers ++ s.readOnlyUsers)
      (validateShares cfg l) := by
  induction l with
  | nil => exact reads_nil cfg
  | cons s l ih => exact (reads_validateShare cfg s).append ih

theorem checks_bind {x : Except ConfigErr Unit} {y : Unit → Except ConfigErr Unit} (hx : Checks x)
    (hy : Checks (y ())) : Checks (x >>= y) := by
  cases x with
  | error err => exact hx
  | ok u => exact hy

theorem checks_rejectIf {c : Prop} [Decidable c] {err : ConfigErr} (herr : ¬ err.Crash) :
    Checks (rejectIf c err) := by
  intro err' h
  unfold rejectIf at h
  split_ifs at h
  obtain rfl := Except.error.inj h
  exact herr

theorem checks_members (name : Str) (ms : List Str) : Checks (checkMembers name ms) := by
  induction ms with
  | nil => exact fun _ h => absurd h (by simp [checkMembers])
  | cons m ms ih =>
    refine checks_bind (checks_rejectIf id) (checks_bind (fun err h => ?_) ih)
    cases hm : UserPat.parse m with
    | ok p => simp [hm, checkParse] at h
    | error why =>
      rw [hm] at h
      obtain rfl := Except.error.inj h
      exact userPat_not_crash hm

/-- The group table is checked to an end, whatever its names are. -/
theorem checks_groups (e : LoadEnv) (seen : List Str) (gs : List GroupCfg) :
    Checks (checkGroups e seen gs) := by
  induction gs generalizing seen with
  | nil => exact fun _ h => absurd h (by simp [checkGroups])
  | cons g gs ih =>
    refine checks_bind (checks_rejectIf id) (checks_bind (checks_rejectIf id)
      (checks_bind ?_ (checks_bind (checks_members _ _) (ih _))))
    cases g.sid with
    | none => exact fun _ h => absurd h (by simp [checkSet])
    | some s => exact checks_rejectIf id

/-! ### Matching a list -/

/-- The entry parses and matches. -/
def hits (who : Who) (cfg : Config) (s : Str) : Bool :=
  match Entry.parse s cfg with
  | .ok e => entryMatches e who cfg
  | .error _ => false

/-- `any_matches` with the ends of the program in it: a slice inside of a character, and a group
index out of range. -/
def anyMatchesRun (who : Who) (cfg : Config) : List Str → Option Bool
  | [] => some false
  | s :: rest =>
    match Entry.parse s cfg with
    | .error (.slicePanic _) => none
    | .error _ => anyMatchesRun who cfg rest
    | .ok (.table i) =>
      if cfg.groups.length ≤ i ∧ ¬ who.guest then none
      else if entryMatches (.table i) who cfg then some true else anyMatchesRun who cfg rest
    | .ok e => if entryMatches e who cfg then some true else anyMatchesRun who cfg rest

/-- A group index that `Entry::parse` gives is that of a group. -/
theorem lt_of_parse_table {s : Str} {cfg : Config} {i : ℕ}
    (h : Entry.parse s cfg = .ok (.table i)) :
    i < cfg.groups.length := by
  have hgroup : ∀ g, Entry.parseGroup g cfg = .ok (.table i) → i < cfg.groups.length := by
    intro g hg
    unfold Entry.parseGroup at hg
    split at hg
    · rename_i j hj
      obtain rfl : j = i := by simpa using hg
      exact (List.findIdx?_eq_some_iff_getElem.1 hj).1
    · split at hg
      split at hg <;> simp at hg
  unfold Entry.parse at h
  split at h
  · dsimp only at h
    split_ifs at h
    · split at h
      · exact absurd h (by simp)
      · split_ifs at h
        · split at h <;> simp at h
        · exact hgroup _ h
    · exact hgroup _ h
  · cases hp : UserPat.parse s with
    | ok p | error why => simp [hp, Except.map] at h

/-- One entry: the program stops, or it goes on unless the entry matches. -/
theorem anyMatchesRun_cons (who : Who) (cfg : Config) (s : Str) (rest : List Str) :
    anyMatchesRun who cfg (s :: rest) =
      if sliceable s then if hits who cfg s then some true else anyMatchesRun who cfg rest
      else none := by
  have hreturns := returns_parse_iff s cfg
  rw [anyMatchesRun, hits]
  by_cases hs : sliceable s
  · rw [if_pos hs]
    have hret := hreturns.2 hs
    cases hp : Entry.parse s cfg with
    | error why =>
      cases why with
      | slicePanic g => exact absurd trivial (hret _ hp)
      | _ => rfl
    | ok e =>
      cases e with
      | table i =>
        have hi : ¬ (cfg.groups.length ≤ i ∧ ¬ who.guest) := fun h =>
          absurd (lt_of_parse_table hp) (by omega)
        exact if_neg hi
      | _ => rfl
  · rw [if_neg hs]
    have hcrash := fun h => hs (hreturns.1 h)
    cases hp : Entry.parse s cfg with
    | error why =>
      cases why with
      | slicePanic g => rfl
      | _ =>
        refine absurd (fun err h => ?_) hcrash
        obtain rfl := Except.error.inj (hp.symm.trans h)
        exact id
    | ok e => exact absurd (fun err h => absurd (hp.symm.trans h) (by simp)) hcrash

/-- Where the matching of a list returns, it is `anyMatches`; it stops at the first entry that is
not sliceable, unless one before it matches. -/
theorem anyMatchesRun_eq (who : Who) (cfg : Config) (list : List Str) :
    anyMatchesRun who cfg list =
      if (list.find? fun s => ¬ sliceable s ∨ hits who cfg s).all sliceable then
        some (anyMatches list who cfg)
      else none := by
  induction list with
  | nil => rfl
  | cons s rest ih =>
    have hany : anyMatches (s :: rest) who cfg = (hits who cfg s || anyMatches rest who cfg) := rfl
    rw [anyMatchesRun_cons, ih, hany]
    by_cases hs : sliceable s
    · by_cases hh : hits who cfg s
      · simp [hs, hh]
      · simp [hs, hh]
    · simp [hs]

/-- **When reading share lists comes to an end.**  `Entry::parse` returns exactly for sliceable
entries; the check of a configuration ends unless, with a group table that is all right, the first
entry that does not parse is not sliceable; the matching of a list ends unless the first entry that
matches or is not sliceable is not sliceable. -/
theorem shareLists_return_iff (e : LoadEnv) (cfg : Config) (s : Str) (list : List Str) (who : Who) :
    (Returns (Entry.parse s cfg) ↔ sliceable s = true) ∧
      (Checks (validate e cfg) ↔
        (checkGroups e [] cfg.groups = .ok () → FirstSliceable cfg (entries cfg))) ∧
      ((anyMatchesRun who cfg list).isSome ↔ ∀ s,
        (list.find? fun s => ¬ sliceable s ∨ hits who cfg s) = some s → sliceable s = true) := by
  refine ⟨returns_parse_iff s cfg, ?_, ?_⟩
  · have hgroups := checks_groups e [] cfg.groups
    have hshares := (reads_validateShares cfg cfg.shares).ends
    rw [validate]
    cases hg : checkGroups e [] cfg.groups with
    | error err =>
      rw [hg] at hgroups
      exact iff_of_true hgroups fun h => absurd h (by simp)
    | ok u => exact hshares.trans ⟨fun h _ => h, fun h => h rfl⟩
  · rw [anyMatchesRun_eq]
    cases list.find? fun s => ¬ sliceable s ∨ hits who cfg s with
    | none => simp
    | some s => by_cases hs : sliceable s <;> simp [hs]

/-- A configuration with one share, whose only valid user is the group `aé`. -/
def accentCfg : Config where
  listen := lit "0.0.0.0:445"
  healthListen := none
  serverName := lit "srv"
  requireSigning := none
  multichannel := false
  encrypt := false
  preferAes256 := false
  oplocks := false
  auth := .ntlm
  kerberos := none
  shares := [⟨lit "s", [], false, [lit "@aé"], [], []⟩]
  users := []
  groups := []

/-- The slice `g[..2]` of `aé` ends inside of `é`: parsing the entry, checking the configuration and
matching the list stop the program. -/
theorem not_returns_accent :
    ¬ Returns (Entry.parse (lit "@aé") accentCfg) ∧
      ¬ Checks (validate ⟨fun _ => true, fun _ => true, id, fun _ => []⟩ accentCfg) ∧
      anyMatchesRun ⟨false, lit "alice", false, none⟩ accentCfg [lit "@aé"] = none := by
  have hparse : Entry.parse (lit "@aé") accentCfg = .error (.slicePanic (lit "aé")) := by rfl
  refine ⟨fun h => h _ hparse trivial, fun h => ?_, ?_⟩
  · refine h (.shareList (lit "s") .validUsers (.slicePanic (lit "aé"))) ?_ trivial
    rfl
  · rw [anyMatchesRun, hparse]

end Authz

end RocketSmbd
