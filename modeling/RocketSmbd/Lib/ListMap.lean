import RocketSmbd.Lib.FinMap

/-!
# Finite maps of lists

A finite map whose values are lists, read as the list of its pairs of a key and an element
(`FinMap.pairs`).  Storing another list under a key exchanges the pairs of that key, and leaves the
rest.
-/

namespace FinMap

variable {K V : Type} [DecidableEq K]

/-- The elements of all lists, each with the key of its list. -/
def pairs (m : FinMap K (List V)) : List (K × V) :=
  m.entries.flatMap fun e => e.2.map (Prod.mk e.1)

/-- The list under a key, empty if there is none. -/
def listAt (m : FinMap K (List V)) (k : K) : List V := (m.lookup k).getD []

/-- The list is stored under the key, or the key has none if it is empty. -/
def storeAt (k : K) (v : List V) (m : FinMap K (List V)) : FinMap K (List V) :=
  if v.isEmpty then m.erase k else m.insert k v

theorem storeAt_nil {k : K} {m : FinMap K (List V)} (h : m.lookup k = none) : storeAt k [] m = m :=
  erase_of_lookup_none h

theorem listAt_storeAt (k : K) (v : List V) (m : FinMap K (List V)) :
    listAt (storeAt k v m) k = v := by
  unfold listAt storeAt
  split_ifs with hempty
  · rw [AList.lookup_erase, List.isEmpty_iff.1 hempty]
    rfl
  · rw [AList.lookup_insert]
    rfl

theorem lookup_storeAt_ne {k k' : K} (h : k' ≠ k) (v : List V) (m : FinMap K (List V)) :
    (storeAt k v m).lookup k' = m.lookup k' := by
  unfold storeAt
  split_ifs
  · exact AList.lookup_erase_ne h
  · exact AList.lookup_insert_ne h

/-- The pairs of one key and those of the others. -/
theorem pairs_perm (m : FinMap K (List V)) (k : K) :
    (pairs m).Perm ((listAt m k).map (Prod.mk k) ++ pairs (m.erase k)) := by
  cases h : m.lookup k with
  | none =>
    rw [erase_of_lookup_none h, listAt, h]
    exact .refl _
  | some v =>
    rw [listAt, h]
    exact (entries_perm h).flatMap_right _

/-- The pairs after another list is stored. -/
theorem pairs_storeAt (k : K) (v : List V) (m : FinMap K (List V)) :
    pairs (storeAt k v m) = v.map (Prod.mk k) ++ pairs (m.erase k) := by
  unfold storeAt
  split_ifs with hempty
  · rw [List.isEmpty_iff.1 hempty]
    rfl
  · rw [pairs, AList.entries_insert, List.flatMap_cons]
    rfl

/-- A part of the list under a key is stored in its place, and the rest leaves the map. -/
theorem pairs_storeAt_filter (k : K) (p : V → Bool) (m : FinMap K (List V)) :
    (pairs (storeAt k ((listAt m k).filter p) m) ++
      ((listAt m k).filter fun x => ¬ p x).map (Prod.mk k)).Perm (pairs m) := by
  have hsplit :
      ((listAt m k).filter p ++ (listAt m k).filter fun x => ¬ p x).Perm (listAt m k) := by
    simpa using List.filter_append_perm p (listAt m k)
  rw [pairs_storeAt]
  refine List.Perm.trans ?_ (pairs_perm m k).symm
  refine List.perm_append_comm.trans ?_
  rw [← List.append_assoc, ← List.map_append]
  exact ((List.perm_append_comm.trans hsplit).map _).append_right _

omit [DecidableEq K] in
/-- A part of every list is kept, and lists that become empty are dropped. -/
theorem pairs_filterMap (p : V → Bool) (m : FinMap K (List V)) :
    pairs (m.filterMap fun _ v => if (v.filter p).isEmpty then none else some (v.filter p)) =
      (pairs m).filter fun e => p e.2 := by
  unfold pairs FinMap.filterMap
  dsimp only
  induction m.entries with
  | nil => rfl
  | cons e l ih =>
    have hhead : (e.2.map (Prod.mk e.1)).filter (fun x => p x.2) =
        (e.2.filter p).map (Prod.mk e.1) := List.filter_map ..
    rw [List.flatMap_cons, List.filter_append, hhead, ← ih]
    by_cases hempty : (e.2.filter p).isEmpty = true
    · rw [List.filterMap_cons_none (by simp [filterEntry, hempty]), List.isEmpty_iff.1 hempty]
      rfl
    · rw [List.filterMap_cons_some (show filterEntry _ e = some ⟨e.1, e.2.filter p⟩ by
        simp [filterEntry, hempty]), List.flatMap_cons]

end FinMap
