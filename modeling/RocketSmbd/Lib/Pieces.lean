import Mathlib.Data.List.Basic

/-!
# Splitting and joining

Lists split at separators (`List.splitOnP`) and joined with one (`List.intercalate`).  Pieces of a
split hold no separator, and joining pieces without separators loses nothing.
-/

namespace Pieces

variable {α : Type} {p : α → Bool} {sep : α} {cs ds : List (List α)}

/-- No piece of a split holds a separator. -/
theorem eq_false_of_mem_splitOnP {s c : List α} (hc : c ∈ s.splitOnP p) {x : α} (hx : x ∈ c) :
    p x = false := by
  induction s generalizing c with
  | nil =>
    rw [List.splitOnP_nil] at hc
    obtain rfl := List.mem_singleton.1 hc
    exact absurd hx List.not_mem_nil
  | cons y s ih =>
    rw [List.splitOnP_cons_eq_if_modifyHead] at hc
    split_ifs at hc with hy
    · rcases List.mem_cons.1 hc with rfl | hc
      · exact absurd hx List.not_mem_nil
      · exact ih hc hx
    · cases hs : s.splitOnP p with
      | nil => exact absurd hs (List.splitOnP_ne_nil p s)
      | cons w ws =>
        rw [hs] at hc ih
        rcases List.mem_cons.1 hc with rfl | hc
        · rcases List.mem_cons.1 hx with rfl | hx
          · simpa using hy
          · exact ih List.mem_cons_self hx
        · exact ih (List.mem_cons_of_mem _ hc) hx

/-- Splitting what was joined gives the pieces back. -/
theorem splitOnP_intercalate (hsep : p sep = true) (hne : cs ≠ [])
    (hcs : ∀ c ∈ cs, ∀ x ∈ c, p x = false) : ([sep].intercalate cs).splitOnP p = cs := by
  induction cs with
  | nil => exact absurd rfl hne
  | cons c cs ih =>
    have hc := hcs c List.mem_cons_self
    cases cs with
    | nil => rw [List.intercalate_singleton, List.splitOnP_eq_singleton hc]
    | cons d cs =>
      rw [List.intercalate_cons_cons, List.append_assoc, List.singleton_append,
        List.splitOnP_append_cons_of_forall_mem hc sep hsep,
        ih (List.cons_ne_nil _ _) fun e he => hcs e (List.mem_cons_of_mem _ he)]

theorem intercalate_eq_nil (sep : α) (hcs : ∀ c ∈ cs, c ≠ []) :
    [sep].intercalate cs = [] ↔ cs = [] := by
  cases cs with
  | nil => exact iff_of_true rfl rfl
  | cons c cs =>
    refine iff_of_false (fun h => ?_) (List.cons_ne_nil _ _)
    have hc := hcs c List.mem_cons_self
    cases cs with
    | nil => exact hc (by rwa [List.intercalate_singleton] at h)
    | cons d cs =>
      rw [List.intercalate_cons_cons, List.append_assoc] at h
      exact hc (List.append_eq_nil_iff.1 h).1

/-- Pieces that are not empty and hold no separator are determined by what they join to. -/
theorem intercalate_inj (hsep : p sep = true) (hcs : ∀ c ∈ cs, c ≠ [] ∧ ∀ x ∈ c, p x = false)
    (hds : ∀ d ∈ ds, d ≠ [] ∧ ∀ x ∈ d, p x = false) :
    [sep].intercalate cs = [sep].intercalate ds ↔ cs = ds := by
  refine ⟨fun h => ?_, fun h => h ▸ rfl⟩
  have hcs' := intercalate_eq_nil sep fun c hc => (hcs c hc).1
  have hds' := intercalate_eq_nil sep fun d hd => (hds d hd).1
  by_cases hnil : cs = []
  · rw [hnil, hds'.1 (h ▸ hcs'.2 hnil)]
  · have hnil' : ds ≠ [] := fun hd => hnil (hcs'.1 (h ▸ hds'.2 hd))
    rw [← splitOnP_intercalate hsep hnil fun c hc => (hcs c hc).2, h,
      splitOnP_intercalate hsep hnil' fun d hd => (hds d hd).2]

end Pieces
