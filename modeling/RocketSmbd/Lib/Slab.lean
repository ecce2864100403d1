import Mathlib.Data.List.Perm.Basic
import Mathlib.Tactic

/-!
# Slabs

A table of optional values in numbered slots, each with a generation that changes when its value
leaves, and a stack of free slots.  The free slots are distinct and hold nothing, which the
structure carries, so a value is never overwritten by an insertion.

* `live_insert`, `live_vacate`, `map_live_modifyAt`: how each operation changes the values.
-/

/-- Slots with generations; `free` is the stack of free slots, its top first. -/
structure Slab (α : Type) where
  slots : List (Option α)
  gens : List UInt32
  free : List ℕ
  free_nodup : free.Nodup
  free_vacant : ∀ i ∈ free, slots[i]? = some none

namespace Slab

variable {α β : Type}
variable {a : α} {i : ℕ} {t : Slab α}

/-- No slots. -/
def empty : Slab α := ⟨[], [], [], List.nodup_nil, fun _ h => absurd h List.not_mem_nil⟩

/-- The values, in slot order. -/
def live (t : Slab α) : List α := t.slots.filterMap id

/-- The value in slot `i`. -/
def at? (t : Slab α) (i : ℕ) : Option α := t.slots.getD i none

theorem at?_eq_some :
    t.at? i = some a ↔ t.slots[i]? = some (some a) := by
  unfold at?
  rw [List.getD_eq_getElem?_getD]
  cases t.slots[i]? <;> simp

theorem notMem_free (h : t.at? i = some a) : i ∉ t.free := by
  intro hi
  have hnone := t.free_vacant i hi
  rw [at?_eq_some.1 h] at hnone
  simp at hnone

/-- Put a value in a free slot, or in a new one of generation 1; the slot and the new table. -/
def insert (t : Slab α) (a : α) : ℕ × Slab α :=
  match h : t.free with
  | i :: free =>
    (i, { t with
      slots := t.slots.set i (some a)
      free
      free_nodup := (List.nodup_cons.1 (h ▸ t.free_nodup)).2
      free_vacant := by
        intro j hj
        have hne : i ≠ j := by
          rintro rfl
          exact (List.nodup_cons.1 (h ▸ t.free_nodup)).1 hj
        rw [List.getElem?_set_ne hne]
        exact t.free_vacant j (h ▸ List.mem_cons_of_mem i hj) })
  | [] =>
    (t.slots.length,
      { slots := t.slots ++ [some a]
        gens := t.gens ++ [1]
        free := []
        free_nodup := List.nodup_nil
        free_vacant := fun _ hi => absurd hi List.not_mem_nil })

/-- Change the value in slot `i`, if there is one. -/
def modifyAt (t : Slab α) (i : ℕ) (f : α → α) : Slab α :=
  { t with
    slots := t.slots.modify i (Option.map f)
    free_vacant := by
      intro j hj
      rw [List.getElem?_modify, t.free_vacant j hj]
      split_ifs <;> rfl }

/-- Empty slot `i`, if it has a value, and give it the generation `bump` makes of its own. -/
def vacate (bump : UInt32 → UInt32) (t : Slab α) (i : ℕ) : Slab α :=
  if h : (t.at? i).isSome then
    { slots := t.slots.set i none
      gens := t.gens.modify i bump
      free := i :: t.free
      free_nodup := by
        obtain ⟨a, ha⟩ := Option.isSome_iff_exists.1 h
        exact List.nodup_cons.2 ⟨notMem_free ha, t.free_nodup⟩
      free_vacant := by
        obtain ⟨a, ha⟩ := Option.isSome_iff_exists.1 h
        intro j hj
        rcases List.mem_cons.1 hj with rfl | hj
        · have hlt := (List.getElem?_eq_some_iff.1 (at?_eq_some.1 ha)).1
          rw [List.getElem?_set_self hlt]
        · have hne : i ≠ j := by
            rintro rfl
            exact notMem_free ha hj
          rw [List.getElem?_set_ne hne]
          exact t.free_vacant j hj }
  else t

/-! ### The values after an operation -/

/-- Overwriting slot `i` exchanges its old value for the new one. -/
theorem filterMap_set_perm (l : List (Option α)) (i : ℕ) (x y : Option α) (h : l[i]? = some x) :
    (x.toList ++ (l.set i y).filterMap id).Perm (y.toList ++ l.filterMap id) := by
  induction l generalizing i with
  | nil => simp at h
  | cons z l ih =>
    cases i with
    | zero =>
      obtain rfl : z = x := by simpa using h
      cases z <;> cases y <;> simp [List.Perm.swap]
    | succ i =>
      have hperm := ih i (by simpa using h)
      cases z with
      | none => simpa using hperm
      | some z =>
        simp only [List.set_cons_succ, List.filterMap_cons, id]
        exact (List.perm_middle.trans (hperm.cons z)).trans List.perm_middle.symm

theorem live_insert (t : Slab α) (a : α) : (t.insert a).2.live.Perm (a :: t.live) := by
  unfold insert
  split
  · next i free h =>
    have hvacant := t.free_vacant i (h ▸ List.mem_cons_self)
    simpa [live] using filterMap_set_perm t.slots i none (some a) hvacant
  · have happ : (t.slots ++ [some a]).filterMap id = t.live ++ [a] := by simp [live]
    exact (List.Perm.of_eq happ).trans List.perm_append_comm

variable (bump : UInt32 → UInt32)

theorem live_vacate (h : t.at? i = some a) :
    (a :: (t.vacate bump i).live).Perm t.live := by
  have hsome : (t.at? i).isSome := by rw [h]; rfl
  rw [vacate, dif_pos hsome]
  simpa [live] using filterMap_set_perm t.slots i (some a) none (at?_eq_some.1 h)

/-- Changing a value keeps any attribute that the change keeps. -/
theorem map_live_modifyAt (g : α → β) (t : Slab α) (i : ℕ) (f : α → α)
    (h : ∀ a, t.at? i = some a → g (f a) = g a) :
    (t.modifyAt i f).live.map g = t.live.map g := by
  have hmap : ∀ (l : List (Option α)) (i : ℕ), (∀ a, l[i]? = some (some a) → g (f a) = g a) →
      ((l.modify i (Option.map f)).filterMap id).map g = (l.filterMap id).map g := by
    intro l
    induction l with
    | nil => simp
    | cons z l ih =>
      intro i hl
      cases i with
      | zero =>
        cases z with
        | none => simp
        | some z => simpa using hl z rfl
      | succ i =>
        have htail := ih i fun a ha => hl a (by simpa using ha)
        cases z <;> simpa using htail
  exact hmap t.slots i fun a ha => h a (at?_eq_some.2 ha)

theorem mem_live : a ∈ t.live ↔ ∃ i, t.at? i = some a := by
  simp only [at?_eq_some]
  constructor
  · intro h
    obtain ⟨x, hx, hid⟩ := List.mem_filterMap.1 h
    obtain rfl : x = some a := hid
    exact List.mem_iff_getElem?.1 hx
  · intro h
    exact List.mem_filterMap.2 ⟨some a, List.mem_iff_getElem?.2 h, rfl⟩

theorem mem_live_modifyAt {f : α → α}
    (h : a ∈ (t.modifyAt i f).live) : a ∈ t.live ∨ ∃ b, t.at? i = some b ∧ a = f b := by
  obtain ⟨j, hj⟩ := mem_live.1 h
  rw [at?_eq_some] at hj
  simp only [modifyAt, List.getElem?_modify] at hj
  by_cases hij : i = j
  · subst hij
    cases hs : t.slots[i]? with
    | none => simp [hs] at hj
    | some x =>
      cases x with
      | none => simp [hs] at hj
      | some b =>
        refine Or.inr ⟨b, at?_eq_some.2 hs, ?_⟩
        simpa [hs] using hj.symm
  · refine Or.inl (mem_live.2 ⟨j, at?_eq_some.2 ?_⟩)
    simpa [hij] using hj

/-! ### Slots after an operation -/

section

variable (t : Slab α)

theorem at?_modifyAt (i j : ℕ) (f : α → α) :
    (t.modifyAt i f).at? j = if i = j then (t.at? j).map f else t.at? j := by
  unfold at? modifyAt
  rw [List.getD_eq_getElem?_getD, List.getD_eq_getElem?_getD, List.getElem?_modify]
  cases t.slots[j]? <;> split_ifs <;> simp

theorem at?_vacate_self (i : ℕ) :
    (t.vacate bump i).at? i = none := by
  unfold vacate
  split_ifs with h
  · unfold at?
    rw [List.getD_eq_getElem?_getD, List.getElem?_set_self']
    cases t.slots[i]? <;> rfl
  · exact Option.not_isSome_iff_eq_none.1 h

/-- Emptying a slot leaves the others and their generations. -/
theorem vacate_ne {i j : ℕ} (h : i ≠ j) :
    (t.vacate bump i).at? j = t.at? j ∧ (t.vacate bump i).gens[j]? = t.gens[j]? := by
  unfold vacate
  split_ifs
  · unfold at?
    rw [List.getD_eq_getElem?_getD, List.getD_eq_getElem?_getD, List.getElem?_set_ne h]
    exact ⟨rfl, by simp [h]⟩
  · exact ⟨rfl, rfl⟩

theorem at?_insert (a : α) : (t.insert a).2.at? (t.insert a).1 = some a := by
  rw [at?_eq_some]
  unfold insert
  split
  · next i free h =>
    have hvacant := t.free_vacant i (h ▸ List.mem_cons_self)
    exact List.getElem?_set_self (List.getElem?_eq_some_iff.1 hvacant).1
  · exact List.getElem?_concat_length

/-- Where a value is put: in a vacant slot, or in a new one of generation 1. -/
theorem insert_cases (a : α) :
    ((t.insert a).1 < t.slots.length ∧ t.at? (t.insert a).1 = none ∧
      (t.insert a).2.slots = t.slots.set (t.insert a).1 (some a) ∧
      (t.insert a).2.gens = t.gens) ∨
    ((t.insert a).1 = t.slots.length ∧ (t.insert a).2.slots = t.slots ++ [some a] ∧
      (t.insert a).2.gens = t.gens ++ [1]) := by
  unfold insert
  split
  · next i free h =>
    have hvacant := t.free_vacant i (h ▸ List.mem_cons_self)
    refine Or.inl ⟨(List.getElem?_eq_some_iff.1 hvacant).1, ?_, rfl, rfl⟩
    rw [at?, List.getD_eq_getElem?_getD, hvacant]
    rfl
  · exact Or.inr ⟨rfl, rfl, rfl⟩

end

theorem at?_of_length_le (h : t.slots.length ≤ i) : t.at? i = none := by
  rw [at?, List.getD_eq_getElem?_getD, List.getElem?_eq_none h]
  rfl

theorem lt_length_of_isSome (h : (t.at? i).isSome) : i < t.slots.length := by
  by_contra hle
  simp [at?_of_length_le (not_lt.1 hle)] at h

/-- A new value leaves the other slots and their generations. -/
theorem insert_ne (t : Slab α) (a : α) {j : ℕ} (h : (t.insert a).1 ≠ j)
    (hgens : t.gens.length = t.slots.length) :
    (t.insert a).2.at? j = t.at? j ∧ (t.insert a).2.gens[j]? = t.gens[j]? ∧
      (j < (t.insert a).2.slots.length → j < t.slots.length) := by
  unfold at?
  rw [List.getD_eq_getElem?_getD, List.getD_eq_getElem?_getD]
  rcases insert_cases t a with ⟨-, -, hslots, hg⟩ | ⟨hnew, hslots, hg⟩
  · rw [hslots, hg, List.getElem?_set_ne h, List.length_set]
    exact ⟨rfl, rfl, id⟩
  · rw [hnew] at h
    rw [hslots, hg, List.length_append, List.length_singleton]
    by_cases hj : j < t.slots.length
    · rw [List.getElem?_append_left hj, List.getElem?_append_left (hgens ▸ hj)]
      exact ⟨rfl, rfl, fun _ => hj⟩
    · have hle : t.slots.length + 1 ≤ j := by omega
      rw [List.getElem?_eq_none (by simpa using hle), List.getElem?_eq_none (by omega),
        List.getElem?_eq_none (by simpa [hgens] using hle), List.getElem?_eq_none (by omega)]
      exact ⟨rfl, rfl, fun hlt => by omega⟩

/-- The slot of a new value is the top of the stack, unless that is empty. -/
theorem free_insert (t : Slab α) (a : α) :
    t.free = (t.insert a).1 :: (t.insert a).2.free ∨ t.free = [] := by
  unfold insert
  split
  · next i free h => exact Or.inl h
  · next h => exact Or.inr h

/-- Every slot has a generation, and there are at most `n`. -/
structure Fits (n : ℕ) (t : Slab α) : Prop where
  gens : t.gens.length = t.slots.length
  slots : t.slots.length ≤ n

theorem fits_empty (n : ℕ) : (empty : Slab α).Fits n := ⟨rfl, Nat.zero_le n⟩

namespace Fits

variable {n : ℕ} {t : Slab α}

theorem modifyAt (h : t.Fits n) (i : ℕ) (f : α → α) : (t.modifyAt i f).Fits n := by
  constructor <;> simp [Slab.modifyAt, h.gens, h.slots]

theorem vacate (h : t.Fits n) (bump : UInt32 → UInt32) (i : ℕ) : (t.vacate bump i).Fits n := by
  unfold Slab.vacate
  split_ifs
  · constructor <;> simp [h.gens, h.slots]
  · exact h

/-- An insertion that finds fewer than `n` values keeps within `n` slots. -/
theorem insert (h : t.Fits n) (hroom : t.slots.length - t.free.length < n) (a : α) :
    (t.insert a).2.Fits n := by
  unfold Slab.insert
  split
  · constructor <;> simp [h.gens, h.slots]
  · next hfree =>
    rw [hfree] at hroom
    have hlt : t.slots.length < n := by simpa using hroom
    constructor
    · simp [h.gens]
    · simpa using hlt

end Fits

theorem slots_eq_map (t : Slab α) : t.slots = (List.range t.slots.length).map t.at? := by
  refine List.ext_getElem (by simp) fun i hi _ => ?_
  simp [at?, List.getD_eq_getElem?_getD, List.getElem?_eq_getElem hi]

/-- The values, each with a key that is made from its slot. -/
def cells {κ : Type} (key : ℕ → κ) (t : Slab α) : List (Sigma fun _ : κ => α) :=
  (List.range t.slots.length).filterMap fun i => (t.at? i).map fun a => ⟨key i, a⟩

section

variable {κ : Type} (key : ℕ → κ) (t : Slab α)

theorem values_cells : (t.cells key).map Sigma.snd = t.live := by
  have hslots : t.live = ((List.range t.slots.length).map t.at?).filterMap id := by
    rw [← slots_eq_map]
    rfl
  rw [hslots, List.filterMap_map, cells, List.map_filterMap]
  refine List.filterMap_congr fun i _ => ?_
  simp only [Function.comp_apply, id]
  cases t.at? i <;> rfl

theorem keys_cells : (t.cells key).map Sigma.fst =
    ((List.range t.slots.length).filter fun i => (t.at? i).isSome).map key := by
  rw [cells, List.map_filterMap]
  generalize List.range t.slots.length = l
  induction l with
  | nil => rfl
  | cons i l ih =>
    rw [List.filterMap_cons, List.filter_cons, ih]
    cases t.at? i <;> rfl

variable {key t}

theorem mem_cells {e : Sigma fun _ : κ => α} :
    e ∈ t.cells key ↔ ∃ i, t.at? i = some e.2 ∧ key i = e.1 := by
  constructor
  · intro he
    obtain ⟨i, -, hi⟩ := List.mem_filterMap.1 he
    obtain ⟨a, ha, rfl⟩ := Option.map_eq_some_iff.1 hi
    exact ⟨i, ha, rfl⟩
  · rintro ⟨i, hat, hkey⟩
    have hlt := lt_length_of_isSome (show (t.at? i).isSome by rw [hat]; rfl)
    refine List.mem_filterMap.2 ⟨i, List.mem_range.2 hlt, ?_⟩
    rw [hat, Option.map_some, hkey]

end

/-- Every vacant slot is free. -/
def Tight (t : Slab α) : Prop := ∀ i, i < t.slots.length → t.at? i = none → i ∈ t.free

theorem tight_empty : (empty : Slab α).Tight := fun i h => absurd h (Nat.not_lt_zero i)

namespace Tight

variable {t : Slab α}

theorem modifyAt (h : t.Tight) (i : ℕ) (f : α → α) : (t.modifyAt i f).Tight := by
  intro j hj hnone
  have hlen : (t.modifyAt i f).slots.length = t.slots.length := by simp [Slab.modifyAt]
  refine h j (hlen ▸ hj) ?_
  rw [at?_modifyAt] at hnone
  split_ifs at hnone
  · exact Option.map_eq_none_iff.1 hnone
  · exact hnone

theorem vacate (h : t.Tight) (bump : UInt32 → UInt32) (i : ℕ) : (t.vacate bump i).Tight := by
  intro j hj hnone
  by_cases hij : i = j
  · subst hij
    cases hat : t.at? i with
    | none =>
      have hsame : t.vacate bump i = t := by rw [Slab.vacate, dif_neg (by simp [hat])]
      rw [hsame] at hj ⊢
      exact h i hj hat
    | some a =>
      rw [Slab.vacate, dif_pos (by simp [hat])]
      exact List.mem_cons_self
  · rw [(vacate_ne bump t hij).1] at hnone
    unfold Slab.vacate at hj ⊢
    split_ifs at hj ⊢
    · exact List.mem_cons_of_mem i (h j (by simpa using hj) hnone)
    · exact h j hj hnone

theorem insert (h : t.Tight) (hgens : t.gens.length = t.slots.length) (a : α) :
    (t.insert a).2.Tight := by
  intro j hj hnone
  have hne : (t.insert a).1 ≠ j := by
    rintro rfl
    exact absurd ((at?_insert t a).symm.trans hnone) (by simp)
  obtain ⟨hat, -, hlt⟩ := insert_ne t a hne hgens
  have hmem := h j (hlt hj) (hat ▸ hnone)
  rcases free_insert t a with hfree | hfree
  · rw [hfree] at hmem
    exact (List.mem_cons.1 hmem).resolve_left (Ne.symm hne)
  · rw [hfree] at hmem
    exact absurd hmem List.not_mem_nil

/-- The values and the free slots are as many as there are slots. -/
theorem live_length (h : t.Tight) : t.live.length + t.free.length = t.slots.length := by
  have hfree : t.free.length = t.slots.countP Option.isNone := by
    have hperm : t.free.Perm
        ((List.range t.slots.length).filter fun i => (t.at? i).isNone) := by
      refine (List.perm_ext_iff_of_nodup t.free_nodup (List.nodup_range.filter _)).2 fun i => ?_
      rw [List.mem_filter, List.mem_range, Option.isNone_iff_eq_none]
      constructor
      · intro hi
        have hvacant := t.free_vacant i hi
        refine ⟨(List.getElem?_eq_some_iff.1 hvacant).1, ?_⟩
        rw [at?, List.getD_eq_getElem?_getD, hvacant]
        rfl
      · exact fun hi => h i hi.1 hi.2
    rw [hperm.length_eq, ← List.countP_eq_length_filter]
    conv_rhs => rw [t.slots_eq_map]
    rw [List.countP_map]
    rfl
  have hlive : t.live.length = t.slots.countP Option.isSome := by
    rw [live, List.length_filterMap_eq_countP]
    rfl
  have hsplit : t.slots.length = _ := List.length_eq_countP_add_countP Option.isSome
  have hnot : t.slots.countP (fun o => decide ¬ o.isSome = true) = t.slots.countP Option.isNone :=
    List.countP_congr fun o _ => by cases o <;> simp
  omega

end Tight

end Slab
