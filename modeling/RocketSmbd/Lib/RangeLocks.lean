import Mathlib.Data.Set.Basic
import Mathlib.Tactic

/-!
# Byte-range locks

Every handle `H` has its own map from bytes to how they are locked through it.  Setting a range
replaces what the handle had there; it conflicts with what the other handles of the same file hold.

* `put_conflict_iff`: what a handle holds itself is never in its way.
* `undone_iff`: a sequence of ranges was set through a handle, and then those of them that were
  locked are unlocked.  The handle is back where it was exactly if it held nothing in any of them.
-/

namespace RangeLocks

/-- How a byte is locked through a handle. -/
inductive Mode
  | none
  | shared
  | exclusive
  deriving DecidableEq, Repr

/-- A lock that is wanted, and one that another handle holds, exclude each other. -/
def Mode.excludes : Mode → Mode → Prop
  | .none, _ => False
  | .shared, held => held = .exclusive
  | .exclusive, held => held ≠ .none

instance : DecidableRel Mode.excludes := fun m held => by
  cases m <;> unfold Mode.excludes <;> infer_instance

/-- A range of bytes. -/
structure Range where
  start : ℕ
  len : ℕ

variable {r : Range}

/-- The byte is in the range. -/
def Range.Has (r : Range) (b : ℕ) : Prop := r.start ≤ b ∧ b < r.start + r.len

instance (r : Range) (b : ℕ) : Decidable (r.Has b) := inferInstanceAs (Decidable (_ ∧ _))

/-- How every byte is locked through every handle. -/
abbrev Table (H : Type) := H → ℕ → Mode

variable {H : Type}

/-- Another handle of the same file, as `rival` tells, is in the way. -/
def Conflict (rival : H → H → Prop) (t : Table H) (h : H) (r : Range) (m : Mode) : Prop :=
  ∃ h', h' ≠ h ∧ rival h h' ∧ ∃ b, r.Has b ∧ m.excludes (t h' b)

variable (rival : H → H → Prop)

/-- Unlocking conflicts with nothing. -/
theorem not_conflict_none (t : Table H) (h : H) (r : Range) :
    ¬ Conflict rival t h r .none := by
  rintro ⟨h', -, -, b, -, hex⟩
  exact hex

/-- A range without bytes conflicts with nothing. -/
theorem not_conflict_empty (t : Table H) (h : H)
    (hr : r.len = 0) (m : Mode) : ¬ Conflict rival t h r m := by
  rintro ⟨h', -, -, b, ⟨hle, hlt⟩, -⟩
  omega

variable [DecidableEq H]

/-- Set a range through a handle. -/
def put (t : Table H) (h : H) (r : Range) (m : Mode) : Table H := fun h' b =>
  if h' = h ∧ r.Has b then m else t h' b

variable (t : Table H)

/-- What is set through a handle leaves the others alone. -/
theorem put_of_ne {h h' : H} (hne : h' ≠ h) (r : Range) (m : Mode) :
    put t h r m h' = t h' := by
  funext b
  exact if_neg fun hb => hne hb.1

theorem put_of_has (h : H) {b : ℕ} (hb : r.Has b) (m : Mode) :
    put t h r m h b = m := if_pos ⟨rfl, hb⟩

theorem put_of_not_has (h : H) {b : ℕ} (hb : ¬ r.Has b) (m : Mode) :
    put t h r m h b = t h b := if_neg fun hr => hb hr.2

/-- What a handle holds itself is never in its way. -/
theorem put_conflict_iff (t : Table H) (h : H) (r r' : Range) (m m' : Mode) :
    Conflict rival (put t h r m) h r' m' ↔ Conflict rival t h r' m' := by
  unfold Conflict
  refine exists_congr fun h' => and_congr_right fun hne => ?_
  rw [put_of_ne t hne]

/-- Setting a range without bytes does nothing. -/
theorem put_empty (h : H) (hr : r.len = 0) (m : Mode) :
    put t h r m = t := by
  funext h' b
  exact if_neg fun ⟨_, hle, hlt⟩ => by omega

/-! ### Sequences -/

/-- Set ranges one after the other. -/
def puts (t : Table H) (h : H) (l : List (Range × Mode)) : Table H :=
  l.foldl (fun t e => put t h e.1 e.2) t

@[simp] theorem puts_cons (h : H) (e : Range × Mode) (l : List (Range × Mode)) :
    puts t h (e :: l) = puts (put t h e.1 e.2) h l := rfl

theorem puts_of_ne {h h' : H} (hne : h' ≠ h) (l : List (Range × Mode)) :
    puts t h l h' = t h' := by
  induction l generalizing t with
  | nil => rfl
  | cons e l ih => rw [puts_cons, ih, put_of_ne t hne]

/-- A byte that no range has keeps its lock. -/
theorem puts_of_not_has (h : H) {l : List (Range × Mode)} {b : ℕ}
    (hl : ∀ e ∈ l, ¬ e.1.Has b) : puts t h l h b = t h b := by
  induction l generalizing t with
  | nil => rfl
  | cons e l ih =>
    obtain ⟨he, hl⟩ := List.forall_mem_cons.1 hl
    rw [puts_cons, ih _ hl, put_of_not_has t h he]

/-- A byte in one of the ranges is unlocked if all of those that have it are. -/
theorem puts_eq_none (h : H) {l : List (Range × Mode)} {b : ℕ}
    (hl : ∀ e ∈ l, e.1.Has b → e.2 = .none) (hb : ∃ e ∈ l, e.1.Has b) :
    puts t h l h b = .none := by
  induction l generalizing t with
  | nil => simp at hb
  | cons e l ih =>
    obtain ⟨he, hl⟩ := List.forall_mem_cons.1 hl
    rw [puts_cons]
    by_cases hrest : ∃ e ∈ l, e.1.Has b
    · exact ih _ hl hrest
    · have hhas : e.1.Has b := by
        obtain ⟨e', hmem, hhas⟩ := hb
        rcases List.mem_cons.1 hmem with rfl | hmem
        · exact hhas
        · exact absurd ⟨e', hmem, hhas⟩ hrest
      rw [puts_of_not_has _ h fun e hmem hb => hrest ⟨e, hmem, hb⟩, put_of_has t h hhas, he hhas]

/-- Unlock ranges one after the other. -/
def unlocks (l : List Range) : List (Range × Mode) := l.map fun r => (r, .none)

/-- **When the undoing restores the table.**  The ranges of `l` were set, and those of them that
were locked, in whatever order they are in `undo`, are unlocked. -/
theorem undone_iff (h : H) (l : List (Range × Mode)) (undo : List Range)
    (hundo : ∀ r, r ∈ undo ↔ ∃ m, m ≠ .none ∧ (r, m) ∈ l) :
    puts (puts t h l) h (unlocks undo) = t ↔ ∀ e ∈ l, ∀ b, e.1.Has b → t h b = .none := by
  have hnone : ∀ b, (∃ e ∈ l, e.1.Has b) → puts (puts t h l) h (unlocks undo) h b = .none := by
    intro b hb
    have hall : ∀ e ∈ unlocks undo, e.1.Has b → e.2 = Mode.none := by
      intro e he _
      obtain ⟨r, -, rfl⟩ := List.mem_map.1 he
      rfl
    by_cases hagain : ∃ e ∈ unlocks undo, e.1.Has b
    · exact puts_eq_none _ h hall hagain
    · -- no lock was taken on the byte, so it was unlocked by the sequence itself
      rw [puts_of_not_has _ h fun e he hb => hagain ⟨e, he, hb⟩]
      refine puts_eq_none t h (fun e he hhas => ?_) hb
      by_contra hm
      exact hagain ⟨(e.1, .none), List.mem_map.2 ⟨e.1, (hundo e.1).2 ⟨e.2, hm, he⟩, rfl⟩, hhas⟩
  constructor
  · intro heq e he b hhas
    rw [← hnone b ⟨e, he, hhas⟩, heq]
  · intro hfree
    funext h' b
    by_cases hh : h' = h
    · subst hh
      by_cases hb : ∃ e ∈ l, e.1.Has b
      · obtain ⟨e, he, hhas⟩ := hb
        rw [hnone b ⟨e, he, hhas⟩, hfree e he b hhas]
      · have hundone : ∀ e ∈ unlocks undo, ¬ e.1.Has b := by
          intro e he hhas
          obtain ⟨r, hr, rfl⟩ := List.mem_map.1 he
          obtain ⟨m, -, hm⟩ := (hundo r).1 hr
          exact hb ⟨(r, m), hm, hhas⟩
        rw [puts_of_not_has _ h' hundone, puts_of_not_has t h' fun e he hhas => hb ⟨e, he, hhas⟩]
    · rw [puts_of_ne _ hh, puts_of_ne t hh]

end RangeLocks
