import RocketSmbd.Smb2.Handle

/-!
# A handle table is a finite map

The table of a session keeps its handles in slots, and recycles them under new generations.  Its
purpose is that of a finite map from ids to open files (`MapStep`).  While no more handles are open
at a time than CREATE allows, the table does what the map does, call by call (`Represents`).
-/

namespace RocketSmbd

namespace Vfs

namespace HandleTable

/-! ### Calls and their replies -/

/-- A call on a table.  What `get` gives is mutable, and `f` is what the caller makes of it. -/
inductive Op
  | insert (of : OpenFile)
  | get (id : UInt64) (treeId : UInt32) (f : OpenFile → OpenFile)
  | remove (id : UInt64) (treeId : UInt32)
  | idsInTree (treeId : UInt32)
  | takeAll

inductive Reply
  | id (id : UInt64)
  | file (of : Option OpenFile)
  | ids (ids : List UInt64)
  | files (files : List OpenFile)

/-- The reply to a call, and the table after it. -/
def perform (t : HandleTable) : Op → Reply × HandleTable
  | .insert of => (.id (t.insert of).1, (t.insert of).2)
  | .get id treeId f => (.file (t.get id treeId), t.modify id treeId f)
  | .remove id treeId =>
    match t.remove id treeId with
    | none => (.file none, t)
    | some (of, t) => (.file (some of), t)
  | .idsInTree treeId => (.ids (t.idsInTree treeId), t)
  | .takeAll => (.files t.takeAll.1, t.takeAll.2)

/-- The replies to a sequence of calls, and the table after them. -/
def performAll (t : HandleTable) : List Op → List Reply × HandleTable
  | [] => ([], t)
  | op :: ops =>
    let (reply, t) := t.perform op
    let (replies, t) := t.performAll ops
    (reply :: replies, t)

/-- At most `n` handles are open at a time. -/
def Capped (n : ℕ) (t : HandleTable) : List Op → Prop
  | [] => True
  | op :: ops => (t.perform op).2.live.length ≤ n ∧ Capped n (t.perform op).2 ops

/-! ### The map -/

/-- What a map from ids to open files does.  An id is chosen for an insertion, any that is not in
use. -/
inductive MapStep (m : FinMap UInt64 OpenFile) : Op → Reply → FinMap UInt64 OpenFile → Prop
  | insert (of : OpenFile) (id : UInt64) (hid : m.lookup id = none) :
    MapStep m (.insert of) (.id id) (m.insert id of)
  | get (id : UInt64) (treeId : UInt32) (f : OpenFile → OpenFile) (of : OpenFile)
      (hof : m.lookup id = some of) (htree : of.treeId = treeId) :
    MapStep m (.get id treeId f) (.file (some of)) (m.insert id (f of))
  | getNone (id : UInt64) (treeId : UInt32) (f : OpenFile → OpenFile)
      (hnone : ∀ of, m.lookup id = some of → of.treeId ≠ treeId) :
    MapStep m (.get id treeId f) (.file none) m
  | remove (id : UInt64) (treeId : UInt32) (of : OpenFile) (hof : m.lookup id = some of)
      (htree : of.treeId = treeId) :
    MapStep m (.remove id treeId) (.file (some of)) (m.erase id)
  | removeNone (id : UInt64) (treeId : UInt32)
      (hnone : ∀ of, m.lookup id = some of → of.treeId ≠ treeId) :
    MapStep m (.remove id treeId) (.file none) m
  | idsInTree (treeId : UInt32) (ids : List UInt64) (hnodup : ids.Nodup)
      (hids : ∀ id, id ∈ ids ↔ ∃ of, m.lookup id = some of ∧ of.treeId = treeId) :
    MapStep m (.idsInTree treeId) (.ids ids) m
  | takeAll (files : List OpenFile) (hfiles : files.Perm m.values) :
    MapStep m .takeAll (.files files) ∅

/-- A sequence of calls on the map. -/
inductive MapRun : FinMap UInt64 OpenFile → List Op → List Reply → FinMap UInt64 OpenFile → Prop
  | nil (m : FinMap UInt64 OpenFile) : MapRun m [] [] m
  | cons {m m' m'' : FinMap UInt64 OpenFile} {op : Op} {ops : List Op} {reply : Reply}
      {replies : List Reply} (h : MapStep m op reply m') (hrest : MapRun m' ops replies m'') :
    MapRun m (op :: ops) (reply :: replies) m''

/-! ### Representation -/

/-- The id means the handle. -/
def Holds (t : HandleTable) (id : UInt64) (of : OpenFile) : Prop :=
  t.gens[(id &&& 0xFFFFFFFF).toNat]? = some (id >>> 32).toUInt32 ∧
    t.at? (id &&& 0xFFFFFFFF).toNat = some of

theorem get_iff_holds {t : HandleTable} {id : UInt64} {treeId : UInt32} {of : OpenFile} :
    t.get id treeId = some of ↔ t.Holds id of ∧ of.treeId = treeId := by
  rw [get_eq_some, Holds, and_assoc]

/-- An id is determined by its slot and the generation of that. -/
theorem Holds.eq {t : HandleTable} {id id' : UInt64} {of of' : OpenFile} (h : t.Holds id of)
    (h' : t.Holds id' of') (hslot : (id &&& 0xFFFFFFFF).toNat = (id' &&& 0xFFFFFFFF).toNat) :
    id = id' := by
  have hgen : (id >>> 32).toUInt32 = (id' >>> 32).toUInt32 := by
    have heq := h.1.symm.trans (hslot ▸ h'.1)
    exact Option.some.inj heq
  rw [← mkId_self id, ← mkId_self id', hgen, hslot]

/-- The table is one of a map. -/
structure Represents (t : HandleTable) (m : FinMap UInt64 OpenFile) : Prop where
  fits : t.Fits maxOpensPerSession
  tight : t.Tight
  holds : ∀ id of, m.lookup id = some of ↔ t.Holds id of

theorem represents_empty : Represents Slab.empty ∅ where
  fits := Slab.fits_empty _
  tight := Slab.tight_empty
  holds := by
    intro id of
    simp [Holds, Slab.empty]

namespace Represents

variable {t : HandleTable} {m : FinMap UInt64 OpenFile}
variable {treeId : UInt32}

section

variable (h : t.Represents m)
include h

theorem lookup_get (id : UInt64) (treeId : UInt32) :
    t.get id treeId = (m.lookup id).filter fun of => of.treeId = treeId := by
  refine Option.ext fun of => ?_
  rw [get_iff_holds, ← h.holds, Option.filter_eq_some_iff, decide_eq_true_eq]

theorem get_none {id : UInt64}
    (hnone : t.get id treeId = none) : ∀ of, m.lookup id = some of → of.treeId ≠ treeId := by
  intro of hof htree
  rw [h.lookup_get, hof, Option.filter_some, if_pos (decide_eq_true htree)] at hnone
  cases hnone

/-- A new handle. -/
theorem insert (of : OpenFile)
    (hcap : (t.insert of).2.live.length ≤ maxOpensPerSession) :
    m.lookup (t.insert of).1 = none ∧ (t.insert of).2.Represents (m.insert (t.insert of).1 of) := by
  have hroom : t.slots.length - t.free.length < maxOpensPerSession := by
    have hlive := (live_insert t of).length_eq
    have hslots := h.tight.live_length
    rw [List.length_cons] at hlive
    omega
  have hfits : (t.insert of).2.Fits maxOpensPerSession := h.fits.insert hroom of
  have htight : (t.insert of).2.Tight := h.tight.insert h.fits.gens of
  have hself : (t.insert of).2.Holds (t.insert of).1 of :=
    (get_iff_holds.1 (get_insert of hfits (by decide))).1
  have hlt : (Slab.insert t of).1 < 2 ^ 32 := by
    have hat := Slab.lt_length_of_isSome
      (show ((Slab.insert t of).2.at? (Slab.insert t of).1).isSome by rw [Slab.at?_insert]; rfl)
    exact hat.trans_le (hfits.slots.trans (by decide))
  have hslot : ((t.insert of).1 &&& 0xFFFFFFFF).toNat = (Slab.insert t of).1 := (mkId_parts _ hlt).1
  have hvacant : t.at? (Slab.insert t of).1 = none := by
    rcases Slab.insert_cases t of with ⟨-, hnone, -⟩ | ⟨hnew, -⟩
    · exact hnone
    · exact Slab.at?_of_length_le hnew.ge
  have hold : ∀ id of', (id &&& 0xFFFFFFFF).toNat ≠ (Slab.insert t of).1 →
      ((t.insert of).2.Holds id of' ↔ t.Holds id of') := by
    intro id of' hne
    obtain ⟨hat, hgens, -⟩ := Slab.insert_ne t of (Ne.symm hne) h.fits.gens
    unfold Holds
    rw [← hat, ← hgens]
    rfl
  have hnone : ∀ id, (id &&& 0xFFFFFFFF).toNat = (Slab.insert t of).1 → m.lookup id = none := by
    intro id heq
    refine Option.eq_none_iff_forall_ne_some.2 fun of' hof' => ?_
    have hat := ((h.holds id of').1 hof').2
    rw [heq, hvacant] at hat
    cases hat
  refine ⟨hnone _ hslot, hfits, htight, fun id of' => ?_⟩
  rw [FinMap.lookup_insert]
  split_ifs with hid
  · subst hid
    constructor
    · intro heq
      obtain rfl := Option.some.inj heq
      exact hself
    · intro hof'
      exact hself.2.symm.trans hof'.2
  · by_cases heq : (id &&& 0xFFFFFFFF).toNat = (Slab.insert t of).1
    · rw [hnone id heq]
      refine ⟨fun hof' => (nomatch hof'), fun hof' => ?_⟩
      exact absurd (hof'.eq hself (heq.trans hslot.symm)) hid
    · rw [hold id of' heq]
      exact h.holds id of'

/-- A handle is changed in place. -/
theorem modify {id : UInt64} {of : OpenFile}
    (hof : t.get id treeId = some of) (f : OpenFile → OpenFile) :
    (t.modify id treeId f).Represents (m.insert id (f of)) := by
  obtain ⟨hholds, htree⟩ := get_iff_holds.1 hof
  rw [modify_eq_modifyAt hof]
  refine ⟨h.fits.modifyAt _ f, h.tight.modifyAt _ f, fun id' of₁ => ?_⟩
  rw [FinMap.lookup_insert]
  have hother : Holds (t.modifyAt (id &&& 0xFFFFFFFF).toNat f) id' of₁ ↔
      t.gens[(id' &&& 0xFFFFFFFF).toNat]? = some (id' >>> 32).toUInt32 ∧
        (if (id &&& 0xFFFFFFFF).toNat = (id' &&& 0xFFFFFFFF).toNat then
          (t.at? (id' &&& 0xFFFFFFFF).toNat).map f
        else t.at? (id' &&& 0xFFFFFFFF).toNat) = some of₁ := by
    unfold Holds
    rw [Slab.at?_modifyAt]
    rfl
  rw [hother]
  split_ifs with hid hslot hslot
  · subst hid
    rw [hholds.2, Option.map_some]
    exact ⟨fun heq => ⟨hholds.1, heq⟩, And.right⟩
  · exact absurd (hid ▸ rfl) hslot
  · -- another id of the slot has another generation
    constructor
    · intro hlook
      exact absurd (((h.holds id' of₁).1 hlook).eq hholds hslot.symm) hid
    · rintro ⟨hgen, hat⟩
      obtain ⟨of₂, hof₂, -⟩ := Option.map_eq_some_iff.1 hat
      exact absurd (Holds.eq ⟨hgen, hof₂⟩ hholds hslot.symm) hid
  · exact h.holds id' of₁

/-- A handle is removed. -/
theorem remove {id : UInt64} {of : OpenFile}
    {t' : HandleTable} (hrem : t.remove id treeId = some (of, t')) :
    m.lookup id = some of ∧ of.treeId = treeId ∧ t'.Represents (m.erase id) := by
  obtain ⟨⟨idx, of'⟩, hfind, heq⟩ := Option.map_eq_some_iff.1 hrem
  obtain ⟨rfl, rfl⟩ := Prod.mk.injEq .. ▸ heq
  obtain ⟨hat, htree⟩ := find_eq_some hfind
  obtain ⟨rfl, hgen⟩ := find_slot hfind
  have hholds : t.Holds id of' := ⟨hgen, hat⟩
  refine ⟨(h.holds id of').2 hholds, htree, h.fits.vacate bump _, h.tight.vacate bump _, ?_⟩
  intro id' of₁
  rw [FinMap.lookup_erase]
  by_cases hslot : (id &&& 0xFFFFFFFF).toNat = (id' &&& 0xFFFFFFFF).toNat
  · have hgone : ¬ Holds (t.vacate bump (id &&& 0xFFFFFFFF).toNat) id' of₁ := by
      rintro ⟨-, hat'⟩
      rw [← hslot, Slab.at?_vacate_self] at hat'
      cases hat'
    split_ifs with hid
    · exact ⟨fun hnone => (nomatch hnone), fun hof₁ => absurd hof₁ hgone⟩
    · refine ⟨fun hof₁ => ?_, fun hof₁ => absurd hof₁ hgone⟩
      exact absurd (((h.holds id' of₁).1 hof₁).eq hholds hslot.symm) hid
  · have hne : id' ≠ id := by
      rintro rfl
      exact hslot rfl
    obtain ⟨hat', hgens'⟩ := Slab.vacate_ne bump t hslot
    rw [if_neg hne, h.holds]
    unfold Holds
    rw [hat', hgens']

/-- An index of a slot, as part of an id. -/
theorem index_lt {i : ℕ} (hi : i < t.slots.length) : i < 2 ^ 32 :=
  hi.trans_le (h.fits.slots.trans (by decide))

theorem holds_mkId {i : ℕ} {of : OpenFile} (hat : t.at? i = some of) :
    t.Holds (mkId (t.gens.getD i 0) i) of := by
  have hi : i < t.slots.length := Slab.lt_length_of_isSome (by rw [hat]; rfl)
  obtain ⟨hidx, hgen⟩ := mkId_parts (t.gens.getD i 0) (h.index_lt hi)
  refine ⟨?_, by rw [hidx]; exact hat⟩
  rw [hidx, hgen, List.getD_eq_getElem?_getD, List.getElem?_eq_getElem (h.fits.gens ▸ hi)]
  rfl

theorem mkId_inj {i j : ℕ} (hi : i < t.slots.length)
    (hj : j < t.slots.length) (heq : mkId (t.gens.getD i 0) i = mkId (t.gens.getD j 0) j) :
    i = j := by
  rw [← (mkId_parts (t.gens.getD i 0) (h.index_lt hi)).1, heq,
    (mkId_parts (t.gens.getD j 0) (h.index_lt hj)).1]

theorem idsInTree (treeId : UInt32) :
    (t.idsInTree treeId).Nodup ∧
      ∀ id, id ∈ t.idsInTree treeId ↔ ∃ of, m.lookup id = some of ∧ of.treeId = treeId := by
  constructor
  · refine List.Nodup.map_on ?_ (List.nodup_range.filter _)
    intro i hi j hj heq
    exact h.mkId_inj (List.mem_range.1 (List.mem_of_mem_filter hi))
      (List.mem_range.1 (List.mem_of_mem_filter hj)) heq
  · intro id
    constructor
    · intro hmem
      obtain ⟨i, hi, rfl⟩ := List.mem_map.1 hmem
      obtain ⟨-, hany⟩ := List.mem_filter.1 hi
      cases hat : t.at? i with
      | none => simp [hat] at hany
      | some of => exact ⟨of, (h.holds _ of).2 (h.holds_mkId hat), by simpa [hat] using hany⟩
    · rintro ⟨of, hof, htree⟩
      exact mem_idsInTree (get_iff_holds.2 ⟨(h.holds id of).1 hof, htree⟩)

/-- The entries of the map, read off the slots. -/
theorem cells_perm :
    (t.cells fun i => mkId (t.gens.getD i 0) i).Perm m.entries := by
  have hkeys : ((t.cells fun i => mkId (t.gens.getD i 0) i).map Sigma.fst).Nodup := by
    rw [Slab.keys_cells]
    refine List.Nodup.map_on ?_ (List.nodup_range.filter _)
    intro i hi j hj heq
    exact h.mkId_inj (List.mem_range.1 (List.mem_of_mem_filter hi))
      (List.mem_range.1 (List.mem_of_mem_filter hj)) heq
  refine (List.perm_ext_iff_of_nodup hkeys.of_map m.nodupKeys.nodup).2 fun e => ?_
  rw [Slab.mem_cells, ← AList.mem_lookup_iff, Option.mem_def, h.holds]
  constructor
  · rintro ⟨i, hat, hid⟩
    rw [← hid]
    exact h.holds_mkId hat
  · rintro ⟨hgen, hat⟩
    refine ⟨_, hat, ?_⟩
    rw [List.getD_eq_getElem?_getD, hgen]
    exact mkId_self e.1

theorem live_perm : t.live.Perm m.values := by
  rw [← Slab.values_cells fun i => mkId (t.gens.getD i 0) i]
  exact h.cells_perm.map Sigma.snd

theorem len_eq : t.len = m.entries.length := by
  have hlive := h.live_perm.length_eq
  have hslots := h.tight.live_length
  rw [FinMap.values, List.length_map] at hlive
  rw [len, ← hlive]
  omega

/-- Every handle is removed. -/
theorem takeAll : t.takeAll.2.Represents ∅ := by
  have hfold : ∀ (is : List ℕ) (t' : HandleTable), t'.Fits maxOpensPerSession → t'.Tight →
      let t'' : HandleTable := is.foldl (Slab.vacate bump) t'
      t''.Fits maxOpensPerSession ∧ t''.Tight ∧
        ∀ i, t''.at? i = if i ∈ is then none else t'.at? i := by
    intro is
    induction is with
    | nil => exact fun t' hfits htight => ⟨hfits, htight, fun i => rfl⟩
    | cons j is ih =>
      intro t' hfits htight
      obtain ⟨hfits', htight', hat⟩ := ih _ (hfits.vacate bump j) (htight.vacate bump j)
      refine ⟨hfits', htight', fun i => ?_⟩
      rw [List.foldl_cons, hat i]
      by_cases hij : j = i
      · subst hij
        simp [Slab.at?_vacate_self]
      · rw [(Slab.vacate_ne bump t' hij).1]
        simp [Ne.symm hij]
  obtain ⟨hfits, htight, hat⟩ := hfold (List.range t.slots.length) t h.fits h.tight
  refine ⟨hfits, htight, fun id of => ⟨fun hof => (nomatch hof), ?_⟩⟩
  rintro ⟨-, hof⟩
  have hnone : t.takeAll.2.at? (id &&& 0xFFFFFFFF).toNat = none := by
    unfold HandleTable.takeAll
    rw [hat]
    split_ifs with hin
    · rfl
    · exact Slab.at?_of_length_le (not_lt.1 fun hlt => hin (List.mem_range.2 hlt))
  rw [hnone] at hof
  cases hof

/-- **A call on the table is one on the map.** -/
theorem perform (op : Op)
    (hcap : (t.perform op).2.live.length ≤ maxOpensPerSession) :
    ∃ m', MapStep m op (t.perform op).1 m' ∧ (t.perform op).2.Represents m' := by
  cases op with
  | insert of =>
    obtain ⟨hnone, hnew⟩ := h.insert of hcap
    exact ⟨_, .insert of _ hnone, hnew⟩
  | get id treeId f =>
    cases hof : t.get id treeId with
    | none =>
      have hsame : t.modify id treeId f = t := by
        unfold HandleTable.modify
        rw [Option.map_eq_none_iff.1 hof]
      refine ⟨m, ?_, ?_⟩
      · simp only [HandleTable.perform, hof]
        exact .getNone id treeId f (h.get_none hof)
      · simp only [HandleTable.perform, hsame]
        exact h
    | some of =>
      refine ⟨_, ?_, h.modify hof f⟩
      simp only [HandleTable.perform, hof]
      obtain ⟨hholds, htree⟩ := get_iff_holds.1 hof
      exact .get id treeId f of ((h.holds id of).2 hholds) htree
  | remove id treeId =>
    simp only [HandleTable.perform]
    cases hrem : t.remove id treeId with
    | none => exact ⟨m, .removeNone id treeId (h.get_none (get_of_remove_none hrem)), h⟩
    | some r =>
      obtain ⟨hof, htree, hrest⟩ := h.remove hrem
      exact ⟨_, .remove id treeId r.1 hof htree, hrest⟩
  | idsInTree treeId =>
    obtain ⟨hnodup, hids⟩ := h.idsInTree treeId
    exact ⟨m, .idsInTree treeId _ hnodup hids, h⟩
  | takeAll => exact ⟨∅, .takeAll _ h.live_perm, h.takeAll⟩

/-- **A sequence of calls on the table is one on the map.** -/
theorem performAll (ops : List Op) (hcap : t.Capped maxOpensPerSession ops) :
    ∃ m', MapRun m ops (t.performAll ops).1 m' ∧ (t.performAll ops).2.Represents m' := by
  induction ops generalizing t m with
  | nil => exact ⟨m, .nil m, h⟩
  | cons op ops ih =>
    obtain ⟨m', hstep, h'⟩ := h.perform op hcap.1
    obtain ⟨m'', hrest, h''⟩ := ih h' hcap.2
    exact ⟨m'', .cons hstep hrest, h''⟩

end

end Represents

/-- **A handle table refines a finite map.**  A sequence of calls of any length, with no more
handles open at a time than CREATE allows, gets the replies of a map from ids to open files: after
it the table finds what the map holds for an id, if the tree is right, its length is that of the
map, and its free list holds no slot twice and none that is in use. -/
theorem handle_table_is_map (ops : List Op)
    (hcap : Capped maxOpensPerSession Slab.empty ops) :
    ∃ m, MapRun ∅ ops (performAll Slab.empty ops).1 m ∧
      let t := (performAll Slab.empty ops).2
      (∀ id treeId, t.get id treeId = (m.lookup id).filter fun of => of.treeId = treeId) ∧
      t.len = m.entries.length ∧ t.free.Nodup ∧ ∀ i ∈ t.free, t.at? i = none := by
  obtain ⟨m, hrun, h⟩ := represents_empty.performAll ops hcap
  refine ⟨m, hrun, h.lookup_get, h.len_eq, Slab.free_nodup _, fun i hi => ?_⟩
  rw [Slab.at?, List.getD_eq_getElem?_getD, Slab.free_vacant _ i hi]
  rfl

/-- A file that was opened for reading on tree 1. -/
def readable : OpenFile where
  fd := 3
  path := []
  rel := ['f']
  leaf := ['f']
  shareIdx := 0
  treeId := 1
  isDir := false
  writable := false
  deleteOnClose := false
  dir := none
  oplockIno := none
  leaseKey := none
  leaseGranted := 0
  serial := 0

/-- Two handles, one of which is removed, asked for on a wrong tree, and replaced. -/
def recycling : List Op :=
  [.insert readable, .insert readable, .remove (mkId 1 0) 1, .get (mkId 1 1) 2 id,
    .insert readable, .idsInTree 1]

theorem handle_table_is_map_recycling :
    Capped maxOpensPerSession Slab.empty recycling ∧
      ∃ m, MapRun ∅ recycling (performAll Slab.empty recycling).1 m ∧
        (performAll Slab.empty recycling).2.len = m.entries.length := by
  have hcap : Capped maxOpensPerSession Slab.empty recycling :=
    ⟨by decide, by decide, by decide, by decide, by decide, by decide, trivial⟩
  obtain ⟨m, hrun, -, hlen, -⟩ := handle_table_is_map recycling hcap
  exact ⟨hcap, m, hrun, hlen⟩

end HandleTable

end Vfs

end RocketSmbd
