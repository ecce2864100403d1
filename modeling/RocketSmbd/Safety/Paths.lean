import RocketSmbd.Lib.Pieces
import RocketSmbd.Vfs

/-!
# Names resolve inside the share

`resolve` splits a client's name at both separators and pushes each component onto the share's
root.  The model of a path is its list of components; here is the loop of the source as well, on
path strings with the semantics of `PathBuf::push`, under which an absolute component would replace
the path.  The two agree (`resolveBuf_eq`), since no component can be absolute.
-/

namespace RocketSmbd

namespace Vfs

/-! ### The loop on path strings -/

/-- `PathBuf::push`. -/
def pushPath (p c : Str) : Str :=
  if c.head? = some '/' then c
  else if p = [] ∨ p.getLast? = some '/' then p ++ c
  else p ++ '/' :: c

/-- The loop of `resolve` over the components, with the path and the relative name so far. -/
def resolveLoop : List Str → Str × Str → Except UInt32 (Str × Str)
  | [], acc => .ok acc
  | comp :: more, (p, rel) =>
    if comp = [] ∨ comp = ['.'] then resolveLoop more (p, rel)
    else if comp = ['.', '.'] then .error Status.objectNameInvalid
    else if comp.any (· = Char.ofNat 0) then .error Status.objectNameInvalid
    else
      resolveLoop more (pushPath p comp, (if rel = [] then rel else rel ++ ['\\']) ++ comp)

def isSeparator (c : Char) : Bool := c = '\\' ∨ c = '/'

/-- `resolve` on path strings. -/
def resolveBuf (root smbName : Str) : Except UInt32 (Str × Str) :=
  resolveLoop (splitOn isSeparator smbName) (root, [])

/-! ### Components -/

/-- The components of a name that name something. -/
def nameComponents (smbName : Str) : List Str :=
  (splitOn isSeparator smbName).filter fun c => c ≠ [] ∧ c ≠ ['.']

/-- A component that is refused. -/
def Refused (c : Str) : Prop := c = ['.', '.'] ∨ Char.ofNat 0 ∈ c

instance (c : Str) : Decidable (Refused c) := inferInstanceAs (Decidable (_ ∨ _))

/-- A component that is pushed. -/
structure Plain (c : Str) : Prop where
  ne_nil : c ≠ []
  ne_dot : c ≠ ['.']
  ne_dots : c ≠ ['.', '.']
  slash : '/' ∉ c
  backslash : '\\' ∉ c
  nul : Char.ofNat 0 ∉ c

theorem splitOn_eq_splitOnP (p : Char → Bool) (s : Str) : splitOn p s = s.splitOnP p := by
  induction s with
  | nil => rw [List.splitOnP_nil]; rfl
  | cons c s ih =>
    rw [List.splitOnP_cons_eq_if_modifyHead, splitOn, ih]
    cases hs : s.splitOnP p with
    | nil => exact absurd hs (List.splitOnP_ne_nil p s)
    | cons w ws => rfl

theorem joinRel_eq_intercalate (cs : List Str) : joinRel cs = ['\\'].intercalate cs := by
  induction cs with
  | nil => rfl
  | cons c cs ih =>
    cases cs with
    | nil => rw [List.intercalate_singleton]; rfl
    | cons d cs =>
      rw [List.intercalate_cons_cons, ← ih, List.append_assoc]
      rfl

theorem components_eq (cs : List Str) :
    components cs = if ∃ c ∈ cs, Refused c then none
      else some (cs.filter fun c => c ≠ [] ∧ c ≠ ['.']) := by
  induction cs with
  | nil => simp [components]
  | cons c cs ih =>
    unfold components
    rw [ih]
    by_cases hskip : c = [] ∨ c = ['.']
    · have hok : ¬ Refused c := by rcases hskip with rfl | rfl <;> decide
      have hfilter : ¬ (c ≠ [] ∧ c ≠ ['.']) := by tauto
      simp [if_pos hskip, hok, hfilter]
    · have hfilter : c ≠ [] ∧ c ≠ ['.'] := by tauto
      have hany : c.any (· = Char.ofNat 0) = true ↔ Char.ofNat 0 ∈ c := by simp
      by_cases hbad : Refused c
      · have hex : ∃ d ∈ c :: cs, Refused d := ⟨c, List.mem_cons_self, hbad⟩
        rw [if_neg hskip, if_pos hex]
        by_cases hdots : c = ['.', '.']
        · rw [if_pos hdots]
        · rw [if_neg hdots, if_pos (hany.2 (hbad.resolve_left hdots))]
      · have hdots : c ≠ ['.', '.'] := fun h => hbad (Or.inl h)
        have hnul : ¬ c.any (· = Char.ofNat 0) = true := fun h => hbad (Or.inr (hany.1 h))
        rw [if_neg hskip, if_neg hdots, if_neg hnul]
        by_cases hrest : ∃ d ∈ cs, Refused d
        · have hex : ∃ d ∈ c :: cs, Refused d := by
            obtain ⟨d, hd, hrefused⟩ := hrest
            exact ⟨d, List.mem_cons_of_mem _ hd, hrefused⟩
          rw [if_pos hrest, if_pos hex]
          rfl
        · have hall : ¬ ∃ d ∈ c :: cs, Refused d := by
            rintro ⟨d, hd, hrefused⟩
            rcases List.mem_cons.1 hd with rfl | hd
            · exact hbad hrefused
            · exact hrest ⟨d, hd, hrefused⟩
          rw [if_neg hrest, if_neg hall, List.filter_cons_of_pos (by simpa using hfilter)]
          rfl

/-- No component holds a separator. -/
theorem not_isSeparator_of_mem {smbName c : Str} (hc : c ∈ splitOn isSeparator smbName) :
    ∀ x ∈ c, isSeparator x = false := by
  rw [splitOn_eq_splitOnP] at hc
  exact fun x hx => Pieces.eq_false_of_mem_splitOnP hc hx

theorem plain_of_mem {smbName c : Str} (hc : c ∈ nameComponents smbName) (hok : ¬ Refused c) :
    Plain c := by
  obtain ⟨hmem, hne⟩ := List.mem_filter.1 hc
  have hsep := not_isSeparator_of_mem hmem
  obtain ⟨hnil, hdot⟩ : c ≠ [] ∧ c ≠ ['.'] := by simpa using hne
  exact {
    ne_nil := hnil
    ne_dot := hdot
    ne_dots := fun h => hok (Or.inl h)
    slash := fun h => absurd (hsep _ h) (by decide)
    backslash := fun h => absurd (hsep _ h) (by decide)
    nul := fun h => hok (Or.inr h) }

theorem Plain.not_refused {c : Str} (h : Plain c) : ¬ Refused c := not_or.2 ⟨h.ne_dots, h.nul⟩

theorem Plain.not_isSeparator {c : Str} (h : Plain c) : ∀ x ∈ c, isSeparator x = false := by
  intro x hx
  have hslash : x ≠ '/' := fun he => h.slash (he ▸ hx)
  have hback : x ≠ '\\' := fun he => h.backslash (he ▸ hx)
  simp [isSeparator, hslash, hback]

/-! ### The path -/

/-- A path extended by components, each behind a slash. -/
def extend (root : Str) (cs : List Str) : Str :=
  if cs = [] then root
  else root ++ (if root = [] ∨ root.getLast? = some '/' then [] else ['/']) ++
    ['/'].intercalate cs

theorem pushPath_plain {c : Str} (hc : Plain c) (p : Str) : pushPath p c = extend p [c] := by
  have hrel : ¬ c.head? = some '/' := by
    intro h
    exact hc.slash (List.mem_of_mem_head? h)
  rw [pushPath, if_neg hrel, extend, if_neg (List.cons_ne_nil _ _), List.intercalate_singleton]
  split_ifs <;> simp

theorem extend_extend {c : Str} (hc : Plain c) (p : Str) (cs : List Str) :
    extend (extend p [c]) cs = extend p (c :: cs) := by
  have hpush : extend p [c] = p ++ (if p = [] ∨ p.getLast? = some '/' then [] else ['/']) ++ c := by
    rw [extend, if_neg (List.cons_ne_nil _ _), List.intercalate_singleton]
  cases cs with
  | nil => rfl
  | cons d cs =>
    -- the path so far ends with `c`, which is not empty and holds no slash
    have hlast : ¬ (extend p [c] = [] ∨ (extend p [c]).getLast? = some '/') := by
      rw [hpush, List.getLast?_append_of_ne_nil _ hc.ne_nil]
      refine not_or.2 ⟨fun h => hc.ne_nil (List.append_eq_nil_iff.1 h).2, fun h => ?_⟩
      exact hc.slash (List.mem_of_mem_getLast? h)
    rw [extend, if_neg (List.cons_ne_nil _ _), if_neg hlast, hpush, extend,
      if_neg (List.cons_ne_nil _ _), List.intercalate_cons_cons]
    simp only [List.append_assoc]

theorem extend_inj {cs ds : List Str} (root : Str) (hcs : ∀ c ∈ cs, Plain c)
    (hds : ∀ d ∈ ds, Plain d) : extend root cs = extend root ds ↔ cs = ds := by
  have hplain : ∀ c : Str, Plain c → c ≠ [] ∧ ∀ x ∈ c, decide (x = '/') = false := by
    intro c hc
    refine ⟨hc.ne_nil, fun x hx => decide_eq_false fun h => hc.slash (h ▸ hx)⟩
  have hjoin : ['/'].intercalate cs = ['/'].intercalate ds ↔ cs = ds :=
    Pieces.intercalate_inj (p := fun x => decide (x = '/')) rfl
      (fun c hc => hplain c (hcs c hc)) (fun d hd => hplain d (hds d hd))
  refine ⟨fun h => ?_, fun h => h ▸ rfl⟩
  have hlen : ∀ es : List Str, (∀ e ∈ es, Plain e) → es ≠ [] → extend root es ≠ root := by
    intro es hes hne heq
    rw [extend, if_neg hne, List.append_assoc, List.append_right_eq_self,
      List.append_eq_nil_iff] at heq
    exact hne ((Pieces.intercalate_eq_nil '/' fun e he => (hes e he).ne_nil).1 heq.2)
  by_cases hc : cs = []
  · subst hc
    by_contra hd
    exact hlen ds hds (fun he => hd he.symm) h.symm
  · by_cases hd : ds = []
    · subst hd
      exact absurd h (hlen cs hcs hc)
    · rw [extend, if_neg hc, extend, if_neg hd, List.append_right_inj] at h
      exact hjoin.1 h

/-! ### What `resolve` returns -/

theorem joinRel_glue (rel c : Str) (cs : List Str) :
    joinRel ((rel ++ ['\\'] ++ c) :: cs) = joinRel (rel :: c :: cs) := by
  cases cs <;> simp [joinRel]

/-- The loop fails at the first component that is refused; otherwise it pushes the others. -/
theorem resolveLoop_eq {comps : List Str} (hsep : ∀ c ∈ comps, ∀ x ∈ c, isSeparator x = false)
    (p rel : Str) :
    resolveLoop comps (p, rel) =
      match components comps with
      | none => .error Status.objectNameInvalid
      | some cs => .ok (extend p cs, joinRel (if rel = [] then cs else rel :: cs)) := by
  induction comps generalizing p rel with
  | nil =>
    rw [resolveLoop, components]
    by_cases hrel : rel = []
    · simp [hrel, extend, joinRel]
    · simp [hrel, extend, joinRel]
  | cons c comps ih =>
    have ih := ih fun d hd => hsep d (List.mem_cons_of_mem _ hd)
    rw [resolveLoop, components]
    by_cases hskip : c = [] ∨ c = ['.']
    · rw [if_pos hskip, if_pos hskip]
      exact ih p rel
    · rw [if_neg hskip, if_neg hskip]
      by_cases hdots : c = ['.', '.']
      · rw [if_pos hdots, if_pos hdots]
      · rw [if_neg hdots, if_neg hdots]
        by_cases hnul : c.any (· = Char.ofNat 0) = true
        · rw [if_pos hnul, if_pos hnul]
        · rw [if_neg hnul, if_neg hnul]
          have hplain : Plain c := {
            ne_nil := fun h => hskip (Or.inl h)
            ne_dot := fun h => hskip (Or.inr h)
            ne_dots := hdots
            slash := fun h => absurd (hsep c List.mem_cons_self _ h) (by decide)
            backslash := fun h => absurd (hsep c List.mem_cons_self _ h) (by decide)
            nul := fun h => hnul (by simpa using h) }
          have hrel' : (if rel = [] then rel else rel ++ ['\\']) ++ c ≠ [] :=
            fun h => hplain.ne_nil (List.append_eq_nil_iff.1 h).2
          rw [ih, pushPath_plain hplain]
          cases components comps with
          | none => rfl
          | some cs =>
            simp only [Option.map_some]
            rw [extend_extend hplain, if_neg hrel']
            by_cases hrel : rel = []
            · rw [if_pos hrel, if_pos hrel, hrel]
              rfl
            · rw [if_neg hrel, if_neg hrel, joinRel_glue]

theorem resolveBuf_eq (root smbName : Str) :
    resolveBuf root smbName =
      if ∃ c ∈ splitOn isSeparator smbName, Refused c then .error Status.objectNameInvalid
      else .ok (extend root (nameComponents smbName),
        ['\\'].intercalate (nameComponents smbName)) := by
  rw [resolveBuf, resolveLoop_eq (fun c hc => not_isSeparator_of_mem hc), components_eq]
  by_cases hbad : ∃ c ∈ splitOn isSeparator smbName, Refused c
  · rw [if_pos hbad, if_pos hbad]
  · rw [if_neg hbad, if_neg hbad, ← joinRel_eq_intercalate]
    rfl

theorem resolve_eq (root : Path) (smbName : Str) :
    resolve root smbName =
      if ∃ c ∈ splitOn isSeparator smbName, Refused c then .error Status.objectNameInvalid
      else .ok (root ++ nameComponents smbName,
        ['\\'].intercalate (nameComponents smbName)) := by
  have hsplit : splitOn (fun c => c = '\\' ∨ c = '/') smbName = splitOn isSeparator smbName := rfl
  rw [resolve, hsplit, components_eq]
  by_cases hbad : ∃ c ∈ splitOn isSeparator smbName, Refused c
  · rw [if_pos hbad, if_pos hbad]
  · rw [if_neg hbad, if_neg hbad, ← joinRel_eq_intercalate]
    rfl

/-- Components that are joined are split again. -/
theorem splitOn_join {cs : List Str} (hcs : ∀ c ∈ cs, Plain c) (hne : cs ≠ []) :
    splitOn isSeparator (['\\'].intercalate cs) = cs := by
  rw [splitOn_eq_splitOnP]
  exact Pieces.splitOnP_intercalate rfl hne fun c hc => (hcs c hc).not_isSeparator

/-- The relative name resolves to itself. -/
theorem resolveBuf_join {cs : List Str} (hcs : ∀ c ∈ cs, Plain c) (root : Str) :
    resolveBuf root (['\\'].intercalate cs) = .ok (extend root cs, ['\\'].intercalate cs) := by
  by_cases hne : cs = []
  · subst hne
    rfl
  · have hsplit := splitOn_join hcs hne
    have hok : ¬ ∃ c ∈ cs, Refused c := by
      rintro ⟨c, hc, hbad⟩
      exact (hcs c hc).not_refused hbad
    have hcomps : nameComponents (['\\'].intercalate cs) = cs := by
      rw [nameComponents, hsplit, List.filter_eq_self]
      intro c hc
      simpa using ⟨(hcs c hc).ne_nil, (hcs c hc).ne_dot⟩
    rw [resolveBuf_eq, hsplit, if_neg hok, hcomps]

/-- **Path resolution stays in the share and is canonical.**  It fails exactly for a component
that is `..` or holds a NUL.  Otherwise the path is the root extended by the components of the name,
none of which can leave it, the relative name is these joined by backslashes, and it resolves to
the same again; two names resolve to one path exactly if they have the same components.  The
model's `resolve` does the same with the list of components. -/
theorem path_resolution (root smbName : Str) :
    ((∃ e, resolveBuf root smbName = .error e) ↔
      ∃ c ∈ splitOn isSeparator smbName, c = ['.', '.'] ∨ Char.ofNat 0 ∈ c) ∧
    (∀ p rel, resolveBuf root smbName = .ok (p, rel) →
      p = extend root (nameComponents smbName) ∧
      (∀ c ∈ nameComponents smbName, Plain c) ∧
      rel = ['\\'].intercalate (nameComponents smbName) ∧
      (rel = [] ↔ p = root) ∧
      resolveBuf root rel = .ok (p, rel) ∧
      ∀ smbName' p' rel', resolveBuf root smbName' = .ok (p', rel') →
        (p = p' ↔ nameComponents smbName = nameComponents smbName')) ∧
    ∀ dir : Path, resolve dir smbName = (resolveBuf root smbName).map
      fun x => (dir ++ nameComponents smbName, x.2) := by
  have hok : ∀ {name p rel : Str}, resolveBuf root name = .ok (p, rel) →
      (∀ c ∈ nameComponents name, Plain c) ∧ p = extend root (nameComponents name) ∧
        rel = ['\\'].intercalate (nameComponents name) := by
    intro name p rel h
    rw [resolveBuf_eq] at h
    split_ifs at h with hbad
    obtain ⟨rfl, rfl⟩ := Prod.mk.inj (Except.ok.inj h)
    refine ⟨fun c hc => plain_of_mem hc fun hr => hbad ⟨c, ?_, hr⟩, rfl, rfl⟩
    exact (List.mem_filter.1 hc).1
  refine ⟨?_, fun p rel h => ?_, fun dir => ?_⟩
  · rw [resolveBuf_eq]
    split_ifs with hbad
    · exact iff_of_true ⟨_, rfl⟩ hbad
    · exact iff_of_false (fun ⟨_, he⟩ => nomatch he) hbad
  · obtain ⟨hplain, rfl, rfl⟩ := hok h
    refine ⟨rfl, hplain, rfl, ?_, resolveBuf_join hplain root, fun name' p' rel' h' => ?_⟩
    · have hroot : extend root [] = root := if_pos rfl
      have hinj := extend_inj root hplain (fun c hc => absurd hc List.not_mem_nil)
      rw [hroot] at hinj
      rw [hinj]
      exact Pieces.intercalate_eq_nil '\\' fun c hc => (hplain c hc).ne_nil
    · obtain ⟨hplain', rfl, -⟩ := hok h'
      exact extend_inj root hplain hplain'
  · rw [resolve_eq, resolveBuf_eq]
    split_ifs <;> rfl

example : resolveBuf (lit "/srv") (lit "a\\./b//c") = .ok (lit "/srv/a/b/c", lit "a\\b\\c") := by
  decide +kernel

end Vfs

end RocketSmbd
