import Mathlib.Algebra.BigOperators.Group.List.Basic
import Mathlib.Data.List.AList
import Mathlib.Data.Set.Card
import Mathlib.Tactic

/-!
# Finite maps

Finite maps with one value type, on top of Mathlib's `AList`, whose keys are distinct by
construction.  Added here are in-place modification of one entry and counting the entries that
satisfy a predicate, with the equations that say how a single update moves the count.
-/

/-- A finite map from `K` to `V`. -/
abbrev FinMap (K V : Type) := AList (fun _ : K => V)

namespace FinMap

variable {K V : Type} [DecidableEq K]
variable {m : FinMap K V}

/-- Apply `f` to the value at `k`, if there is one. -/
def modify (k : K) (f : V → V) (m : FinMap K V) : FinMap K V :=
  match m.lookup k with
  | none => m
  | some v => m.insert k (f v)

/-- The values of the map. -/
def values (m : FinMap K V) : List V := m.entries.map Sigma.snd

/-- The number of entries whose key and value satisfy `p`. -/
def count (p : K → V → Bool) (m : FinMap K V) : ℕ := m.entries.countP fun e => p e.1 e.2

@[simp] theorem lookup_modify (k : K) (f : V → V) (m : FinMap K V) :
    (modify k f m).lookup k = (m.lookup k).map f := by
  unfold modify
  cases h : m.lookup k with
  | none => simp [h]
  | some v => simp

theorem modify_eq_insert {k : K} {v : V} (h : m.lookup k = some v) (f : V → V) :
    modify k f m = m.insert k (f v) := by
  rw [modify, h]

theorem insert_erase (m : FinMap K V) (k : K) (v : V) : (m.insert k v).erase k = m.erase k := by
  refine AList.ext ?_
  show List.kerase k (AList.insert k v m).entries = List.kerase k m.entries
  rw [AList.entries_insert]
  exact List.kerase_cons_eq rfl

theorem insert_insert (m : FinMap K V) (k : K) (v v' : V) :
    (m.insert k v).insert k v' = m.insert k v' := AList.insert_insert m

theorem lookup_insert (k k' : K) (v : V) (m : FinMap K V) :
    (m.insert k v).lookup k' = if k' = k then some v else m.lookup k' := by
  split_ifs with h
  · rw [h, AList.lookup_insert]
  · exact AList.lookup_insert_ne h

theorem lookup_erase (k k' : K) (m : FinMap K V) :
    (m.erase k).lookup k' = if k' = k then none else m.lookup k' := by
  split_ifs with h
  · rw [h, AList.lookup_erase]
  · exact AList.lookup_erase_ne h

theorem notMem_iff {k : K} : k ∉ m ↔ m.lookup k = none := AList.lookup_eq_none.symm

/-- Replace the value of an entry, or drop the entry. -/
def filterEntry (f : K → V → Option V) (e : Sigma fun _ : K => V) : Option (Sigma fun _ : K => V) :=
  (f e.1 e.2).map fun v => ⟨e.1, v⟩

omit [DecidableEq K] in
theorem keys_filterMap_sublist (f : K → V → Option V) (l : List (Sigma fun _ : K => V)) :
    (l.filterMap (filterEntry f)).keys.Sublist l.keys := by
  induction l with
  | nil => simp
  | cons e l ih =>
    cases h : f e.1 e.2 with
    | none => simpa [filterEntry, h] using ih.cons e.1
    | some v => simpa [filterEntry, h] using ih.cons_cons e.1

/-- Replace the value at each key, or drop the key (`HashMap::retain` on changed values). -/
def filterMap (f : K → V → Option V) (m : FinMap K V) : FinMap K V where
  entries := m.entries.filterMap (filterEntry f)
  nodupKeys := (keys_filterMap_sublist f m.entries).nodup m.nodupKeys

theorem lookup_filterMap {f : K → V → Option V} {k : K} {v : V}
    (h : (filterMap f m).lookup k = some v) : ∃ v', m.lookup k = some v' ∧ f k v' = some v := by
  have hmem : (⟨k, v⟩ : Sigma fun _ : K => V) ∈ m.entries.filterMap (filterEntry f) :=
    AList.mem_lookup_iff.1 h
  obtain ⟨⟨k', v'⟩, hin, hentry⟩ := List.mem_filterMap.1 hmem
  obtain ⟨w, hw, heq⟩ := Option.map_eq_some_iff.1 hentry
  cases heq
  exact ⟨v', AList.mem_lookup_iff.2 hin, hw⟩

/-! ### Totals -/

theorem entries_perm {k : K} {v : V} (h : m.lookup k = some v) :
    m.entries.Perm (⟨k, v⟩ :: (m.erase k).entries) := by
  have hlist : ∀ l : List (Sigma fun _ : K => V), l.dlookup k = some v →
      l.Perm (⟨k, v⟩ :: l.kerase k) := by
    intro l
    induction l with
    | nil => simp
    | cons e l ih =>
      obtain ⟨k', v'⟩ := e
      intro hl
      by_cases hk : k = k'
      · subst hk
        rw [List.dlookup_cons_eq] at hl
        have herase : (⟨k, v'⟩ :: l : List (Sigma fun _ : K => V)).kerase k = l :=
          List.kerase_cons_eq rfl
        rw [herase, Option.some.inj hl]
      · rw [List.dlookup_cons_ne l ⟨k', v'⟩ hk] at hl
        rw [List.kerase_cons_ne hk]
        exact ((ih hl).cons _).trans (List.Perm.swap _ _ _)
  exact hlist m.entries h

section Total

variable {M : Type} [AddCommMonoid M] (f : K → V → M)

/-- The sum of `f` over the entries. -/
def total (m : FinMap K V) : M := (m.entries.map fun e => f e.1 e.2).sum

omit [DecidableEq K] in
theorem total_empty : total f ∅ = 0 := rfl

theorem total_of_lookup {m : FinMap K V} {k : K} {v : V} (h : m.lookup k = some v) :
    total f m = f k v + total f (m.erase k) := by
  unfold total
  rw [((entries_perm h).map fun e => f e.1 e.2).sum_eq, List.map_cons, List.sum_cons]

theorem total_insert (m : FinMap K V) (k : K) (v : V) :
    total f (m.insert k v) = f k v + total f (m.erase k) := by
  rw [total_of_lookup f (AList.lookup_insert m), insert_erase]

theorem erase_of_lookup_none {m : FinMap K V} {k : K} (h : m.lookup k = none) : m.erase k = m := by
  refine AList.ext ?_
  exact List.kerase_of_notMem_keys (AList.mem_keys.not.1 (AList.lookup_eq_none.1 h))

end Total

variable (p : K → V → Bool)

theorem count_of_lookup {k : K} {v : V}
    (h : m.lookup k = some v) : count p m = count p (m.erase k) + if p k v then 1 else 0 := by
  unfold count
  rw [(entries_perm h).countP_eq, List.countP_cons]

theorem count_insert (m : FinMap K V) (k : K) (v : V) :
    count p (m.insert k v) = count p (m.erase k) + if p k v then 1 else 0 := by
  rw [count_of_lookup p (AList.lookup_insert m), insert_erase]

theorem count_erase_le (m : FinMap K V) (k : K) :
    count p (m.erase k) ≤ count p m := by
  cases h : m.lookup k with
  | none => rw [erase_of_lookup_none h]
  | some v =>
    rw [count_of_lookup p h]
    exact Nat.le_add_right _ _

theorem count_pos {p : K → V → Bool} :
    0 < count p m ↔ ∃ k v, m.lookup k = some v ∧ p k v = true := by
  unfold count
  rw [List.countP_pos_iff]
  constructor
  · rintro ⟨⟨k, v⟩, hmem, hp⟩
    exact ⟨k, v, AList.mem_lookup_iff.2 hmem, hp⟩
  · rintro ⟨k, v, hlook, hp⟩
    exact ⟨⟨k, v⟩, AList.mem_lookup_iff.1 hlook, hp⟩

omit [DecidableEq K] in
theorem count_mono {p q : K → V → Bool} (h : ∀ k v, p k v = true → q k v = true)
    (m : FinMap K V) : count p m ≤ count q m :=
  List.countP_mono_left fun e _ => h e.1 e.2

/-- A count is the number of keys whose value satisfies the predicate. -/
theorem count_eq_ncard (m : FinMap K V) :
    count p m = {k | ∃ v, m.lookup k = some v ∧ p k v = true}.ncard := by
  let keys := (m.entries.filter fun e => p e.1 e.2).map Sigma.fst
  have hnodup : keys.Nodup := (List.filter_sublist.map Sigma.fst).nodup m.nodupKeys
  have hset : {k | ∃ v, m.lookup k = some v ∧ p k v = true} = (keys.toFinset : Set K) := by
    ext k
    simp only [Set.mem_ofPred_eq, List.coe_toFinset, keys, List.mem_map, List.mem_filter]
    constructor
    · rintro ⟨v, hlook, hp⟩
      exact ⟨⟨k, v⟩, ⟨AList.mem_lookup_iff.1 hlook, hp⟩, rfl⟩
    · rintro ⟨⟨k', v⟩, ⟨hmem, hp⟩, rfl⟩
      exact ⟨v, AList.mem_lookup_iff.2 hmem, hp⟩
  rw [hset, Set.ncard_coe_finset, List.toFinset_card_of_nodup hnodup, List.length_map, count,
    List.countP_eq_length_filter]

theorem count_le_count {p q : K → V → Bool} {m m' : FinMap K V}
    (h : ∀ k v, m'.lookup k = some v → p k v = true → ∃ v', m.lookup k = some v' ∧ q k v' = true) :
    count p m' ≤ count q m := by
  rw [count_eq_ncard, count_eq_ncard]
  refine Set.ncard_le_ncard (fun k ⟨v, hv, hp⟩ => h k v hv hp) ?_
  refine (List.finite_toSet m.keys).subset fun k ⟨v, hv, _⟩ => ?_
  exact AList.mem_keys.1 (AList.lookup_isSome.1 (by rw [hv]; rfl))

end FinMap
