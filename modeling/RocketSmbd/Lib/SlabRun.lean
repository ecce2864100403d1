import RocketSmbd.Lib.Slab
import Mathlib.Logic.Function.Iterate

/-!
# Runs of a slab

A slab is filled and emptied for as long as one likes.  `Run` remembers, for every value that was
put in, its slot and how often the slot had been filled before.

* `Run.Ok`: no slot and number occur twice, a slot that was filled `n` times has the numbers below
  `n`, and its generation is `bump` applied once for every time it was emptied.
* `Run.Ok.run`: this holds in every run.
-/

namespace Slab

variable {α : Type}

/-- Put a value in, or empty a slot. -/
inductive Op (α : Type)
  | insert (a : α)
  | vacate (i : ℕ)

/-- A table and the slot and number of every fill so far. -/
structure Run (α : Type) where
  table : Slab α
  log : List (ℕ × ℕ)

namespace Run

variable {r : Run α}

/-- Nothing was put in yet. -/
def start : Run α := ⟨Slab.empty, []⟩

/-- How often a slot was filled. -/
def fills (r : Run α) (i : ℕ) : ℕ := r.log.countP fun e => e.1 = i

/-- How often a slot was emptied: once for every fill, but for the one that is still in. -/
def vacated (r : Run α) (i : ℕ) : ℕ := r.fills i - if (r.table.at? i).isSome then 1 else 0

variable (bump : UInt32 → UInt32)

def step (r : Run α) : Op α → Run α
  | .insert a =>
    ⟨(r.table.insert a).2, r.log ++ [((r.table.insert a).1, r.fills (r.table.insert a).1)]⟩
  | .vacate i => ⟨r.table.vacate bump i, r.log⟩

def run (ops : List (Op α)) (r : Run α) : Run α := ops.foldl (step bump) r

theorem fills_insert (r : Run α) (a : α) (i : ℕ) :
    (step bump r (.insert a)).fills i =
      r.fills i + if (r.table.insert a).1 = i then 1 else 0 := by
  unfold fills step
  rw [List.countP_append, List.countP_singleton]
  simp

/-- What holds in every run. -/
structure Ok (r : Run α) : Prop where
  gens : r.table.gens.length = r.table.slots.length
  filled : ∀ i, 0 < r.fills i ↔ i < r.table.slots.length
  log : ∀ i n, (i, n) ∈ r.log ↔ n < r.fills i
  nodup : r.log.Nodup
  gen : ∀ i, i < r.table.slots.length → r.table.gens[i]? = some (bump^[r.vacated i] 1)

theorem ok_start : (start : Run α).Ok bump where
  gens := rfl
  filled i := by simp [start, fills, Slab.empty]
  log i n := by simp [start, fills]
  nodup := List.nodup_nil
  gen i hi := absurd hi (Nat.not_lt_zero i)

section

variable (h : r.Ok bump)
include h

/-- The slot of a new value: it is vacant, and what its generation will be. -/
theorem Ok.gen_insert (a : α) :
    r.table.at? (r.table.insert a).1 = none ∧
      (r.table.insert a).2.gens[(r.table.insert a).1]? =
        some (bump^[r.fills (r.table.insert a).1] 1) := by
  rcases insert_cases r.table a with ⟨hlt, hnone, -, hgens⟩ | ⟨hnew, -, hgens⟩
  · refine ⟨hnone, ?_⟩
    rw [hgens, h.gen _ hlt, vacated, hnone]
    rfl
  · have hzero : r.fills r.table.slots.length = 0 := by
      have hnot := mt (h.filled r.table.slots.length).1 (lt_irrefl _)
      omega
    refine ⟨at?_of_length_le hnew.ge, ?_⟩
    rw [hgens, hnew, hzero, ← h.gens, List.getElem?_concat_length]
    rfl

theorem Ok.insert (a : α) : (step bump r (.insert a)).Ok bump := by
  obtain ⟨hnone, hgen⟩ := h.gen_insert bump a
  have hfills := fills_insert bump r a
  have hself : (r.table.insert a).2.at? (r.table.insert a).1 = some a := at?_insert r.table a
  set i := (r.table.insert a).1 with hi
  refine ⟨?_, fun j => ?_, fun j n => ?_, ?_, fun j hj => ?_⟩
  · rcases insert_cases r.table a with ⟨-, -, hslots, hgens⟩ | ⟨-, hslots, hgens⟩
    · simp only [step, hslots, hgens, List.length_set, h.gens]
    · simp only [step, hslots, hgens, List.length_append, h.gens, List.length_singleton]
  · rw [hfills]
    have hold := h.filled j
    rcases insert_cases r.table a with ⟨hlt, -, hslots, -⟩ | ⟨hnew, hslots, -⟩
    · simp only [step, hslots, List.length_set]
      split_ifs with hij
      · subst hij
        exact iff_of_true (Nat.succ_pos _) hlt
      · exact hold
    · simp only [step, hslots, List.length_append, List.length_singleton]
      split_ifs with hij
      · omega
      · omega
  · rw [hfills]
    simp only [step, List.mem_append, List.mem_singleton, Prod.mk.injEq, h.log]
    rw [← hi]
    split_ifs with hij
    · subst hij
      omega
    · constructor
      · rintro (hn | ⟨hji, -⟩)
        · exact hn
        · exact absurd hji.symm hij
      · exact Or.inl
  · refine List.nodup_append.2 ⟨h.nodup, List.nodup_singleton _, fun e he e' he' heq => ?_⟩
    obtain rfl := List.mem_singleton.1 he'
    subst heq
    exact absurd ((h.log _ _).1 he) (lt_irrefl _)
  · by_cases hij : i = j
    · subst hij
      have hv : (step bump r (.insert a)).vacated i = r.fills i := by
        rw [vacated, hfills, if_pos rfl]
        simp only [step, hself, Option.isSome_some, if_true]
        omega
      rw [hv]
      exact hgen
    · obtain ⟨hat, hsame, hlt⟩ := insert_ne r.table a (hi ▸ hij) h.gens
      have hv : (step bump r (.insert a)).vacated j = r.vacated j := by
        rw [vacated, vacated, hfills, if_neg hij]
        simp only [step, hat, Nat.add_zero]
      rw [hv]
      exact hsame.trans (h.gen j (hlt hj))

theorem Ok.vacate (i : ℕ) : (step bump r (.vacate i)).Ok bump := by
  by_cases hi : (r.table.at? i).isSome
  · have hlt := lt_length_of_isSome hi
    have hslots : (r.table.vacate bump i).slots = r.table.slots.set i none := by
      rw [Slab.vacate, dif_pos hi]
    have hgens : (r.table.vacate bump i).gens = r.table.gens.modify i bump := by
      rw [Slab.vacate, dif_pos hi]
    refine ⟨?_, fun j => ?_, h.log, h.nodup, fun j hj => ?_⟩
    · simp only [step, hslots, hgens, List.length_modify, List.length_set, h.gens]
    · simp only [step, hslots, List.length_set]
      exact h.filled j
    · replace hj : j < r.table.slots.length := by simpa [step, hslots] using hj
      by_cases hij : i = j
      · subst hij
        -- the fill that was in is now counted as emptied
        have hv : (step bump r (.vacate i)).vacated i = r.vacated i + 1 := by
          have hpos := (h.filled i).2 hj
          have hlog : (step bump r (.vacate i)).fills i = r.fills i := rfl
          rw [vacated, vacated, if_pos hi, hlog]
          simp only [step, at?_vacate_self, Option.isSome_none, Bool.false_eq_true, if_false]
          omega
        rw [hv, Function.iterate_succ_apply']
        simp only [step, hgens, List.getElem?_modify_eq, h.gen i hj]
        rfl
      · obtain ⟨hat, hsame⟩ := vacate_ne bump r.table hij
        have hv : (step bump r (.vacate i)).vacated j = r.vacated j := by
          simp only [vacated, step, hat, fills]
        rw [hv]
        exact hsame.trans (h.gen j hj)
  · have hstay : step bump r (.vacate i) = r := by
      rw [step, Slab.vacate, dif_neg hi]
    rw [hstay]
    exact h

theorem Ok.step (op : Op α) : (step bump r op).Ok bump := by
  cases op with
  | insert a => exact h.insert bump a
  | vacate i => exact h.vacate bump i

theorem Ok.run (ops : List (Op α)) : (run bump ops r).Ok bump := by
  induction ops generalizing r with
  | nil => exact h
  | cons op ops ih => exact ih (h.step bump op)

end

/-! ### What was emptied stays counted -/

theorem Ok.vacated_le_insert (h : r.Ok bump) (a : α) (i : ℕ) :
    r.vacated i ≤ (Run.step bump r (.insert a)).vacated i := by
  unfold vacated
  rw [fills_insert]
  by_cases hi : (r.table.insert a).1 = i
  · rw [if_pos hi]
    split_ifs <;> omega
  · have hat : (Run.step bump r (.insert a)).table.at? i = r.table.at? i :=
      (insert_ne r.table a hi h.gens).1
    rw [if_neg hi, hat]
    exact le_rfl

theorem vacated_le_fills (r : Run α) (i : ℕ) : r.vacated i ≤ r.fills i := Nat.sub_le _ _

/-- A slot that holds nothing was emptied as often as it was filled. -/
theorem vacated_of_none {i : ℕ} (h : r.table.at? i = none) :
    r.vacated i = r.fills i := by
  rw [vacated, h]
  rfl

theorem Ok.vacated_lt_fills (h : r.Ok bump) {i : ℕ} (hi : (r.table.at? i).isSome) :
    r.vacated i < r.fills i := by
  have hpos := (h.filled i).2 (lt_length_of_isSome hi)
  rw [vacated, if_pos hi]
  omega

/-- Emptying slots one after the other. -/
theorem run_vacate (l : List ℕ) (r : Run α) :
    run bump (l.map .vacate) r = ⟨l.foldl (Slab.vacate bump) r.table, r.log⟩ := by
  induction l generalizing r with
  | nil => rfl
  | cons i l ih => exact ih (step bump r (.vacate i))

end Run

theorem at?_foldl_vacate (bump : UInt32 → UInt32) (l : List ℕ) (t : Slab α) (j : ℕ) :
    (l.foldl (Slab.vacate bump) t).at? j = if j ∈ l then none else t.at? j := by
  induction l generalizing t with
  | nil => rfl
  | cons i l ih =>
    rw [List.foldl_cons, ih]
    by_cases hij : i = j
    · subst hij
      simp [at?_vacate_self]
    · rw [(vacate_ne bump t hij).1]
      simp [Ne.symm hij]

end Slab
