import Mathlib.Tactic.Common

/-!
# Computations with a state and failure

`Eff S E A` is a computation on a state `S` that returns an `A` or fails with an `E`.  Unlike a
transaction, a failed computation keeps the state changes made before the failure.

* `refuse c e` fails with `e` when `c` holds: the early return of a handler.
* `attempt m` turns the failure of `m` into a value.
* `zoom get set m` runs a computation on a part of the state.
* `Holds P m Q X`: from a state with `P`, `m` returns a value and a state with `Q`, or fails in a
  state with `X`.
* `Keeps R m`: the state before and the state after, whatever the outcome, are related by `R`.
* `Returns m Q`: every value that `m` returns satisfies `Q`.
* `Decides m r`: from every state `m` has the outcome `r` and changes nothing.
* `Refuses bad m s`: from the state `s`, `m` fails with a `bad` error and changes nothing.

Each has one rule for each way to build a computation (`Keeps.bind`, `Keeps.refuse`, …), so a
proof about a handler follows its text.
-/

/-- A computation on `S` that returns an `A` or fails with an `E`. -/
def Eff (S E A : Type) : Type := S → Except E A × S

namespace Eff

variable {S T E F A B : Type}
variable {k : A → Eff S E B}

/-- Run both outcomes of a computation on. -/
def andThen (m : Eff S E A) (k : A → Eff S E B) : Eff S E B := fun s =>
  match m s with
  | (.ok a, s') => k a s'
  | (.error e, s') => (.error e, s')

instance : Monad (Eff S E) where
  pure a := fun s => (.ok a, s)
  bind := andThen

/-- Fail. -/
def fail (e : E) : Eff S E A := fun s => (.error e, s)

/-- The state. -/
def read : Eff S E S := fun s => (.ok s, s)

/-- Change the state. -/
def update (f : S → S) : Eff S E Unit := fun s => (.ok (), f s)

/-- Change the state and return a value: a computation that cannot fail. -/
def total (f : S → A × S) : Eff S E A := fun s => (.ok (f s).1, (f s).2)

/-- Fail with `e` if `c` holds. -/
def refuse (c : Prop) [Decidable c] (e : E) : Eff S E Unit := if c then fail e else pure ()

/-- The value of an option, or fail with `e`. -/
def need (e : E) : Option A → Eff S E A
  | some a => pure a
  | none => fail e

/-- A value computed or failed with. -/
def ofExcept : Except E A → Eff S E A
  | .ok a => pure a
  | .error e => fail e

/-- The failure of `m` as a value. -/
def attempt (m : Eff S E A) : Eff S F (Except E A) := fun s => (.ok (m s).1, (m s).2)

/-- Run a computation on a part of the state. -/
def zoom (get : S → T) (set : T → S → S) (m : Eff T E A) : Eff S E A := fun s =>
  ((m (get s)).1, set (m (get s)).2 s)

/-- Run a computation and forget its outcome. -/
def ignore (m : Eff S E A) : Eff S F Unit := fun s => (.ok (), (m s).2)

/-- Change the failure. -/
def mapErr (f : E → F) (m : Eff S E A) : Eff S F A := fun s =>
  match m s with
  | (.ok a, s') => (.ok a, s')
  | (.error e, s') => (.error (f e), s')

/-- The state in which a computation ends. -/
def after (m : Eff S E A) (s : S) : S := (m s).2

@[simp] theorem pure_run (a : A) (s : S) : (pure a : Eff S E A) s = (.ok a, s) := rfl

@[simp] theorem fail_run (e : E) (s : S) : (fail e : Eff S E A) s = (.error e, s) := rfl

@[simp] theorem read_run (s : S) : (read : Eff S E S) s = (.ok s, s) := rfl

@[simp] theorem update_run (f : S → S) (s : S) : (update f : Eff S E Unit) s = (.ok (), f s) := rfl

@[simp] theorem attempt_run (m : Eff S E A) (s : S) :
    (attempt m : Eff S F (Except E A)) s = (.ok (m s).1, (m s).2) := rfl

@[simp] theorem zoom_run (get : S → T) (set : T → S → S) (m : Eff T E A) (s : S) :
    zoom get set m s = ((m (get s)).1, set (m (get s)).2 s) := rfl

theorem bind_run (m : Eff S E A) (k : A → Eff S E B) (s : S) :
    (m >>= k) s = match m s with
      | (.ok a, s') => k a s'
      | (.error e, s') => (.error e, s') := rfl

theorem bind_run_ok {m : Eff S E A} {s s' : S} {a : A}
    (h : m s = (.ok a, s')) : (m >>= k) s = k a s' := by
  rw [bind_run, h]

/-- Changing the result leaves the state. -/
theorem bind_pure_state (m : Eff S E A) (f : A → B) (s : S) :
    ((m >>= fun a => pure (f a)) s).2 = (m s).2 := by
  rw [bind_run]
  rcases m s with ⟨_ | _, _⟩ <;> rfl

theorem bind_run_error {m : Eff S E A} {s s' : S} {e : E}
    (h : m s = (.error e, s')) : (m >>= k) s = (.error e, s') := by
  rw [bind_run, h]

/-! ### Triples -/

/-- From a state with `P`, `m` returns a value and a state with `Q`, or fails in a state with
`X`. -/
def Holds (P : S → Prop) (m : Eff S E A) (Q : A → S → Prop) (X : S → Prop) : Prop :=
  ∀ s, P s → match (m s).1 with
    | .ok a => Q a (m s).2
    | .error _ => X (m s).2

namespace Holds

variable {P P' X X' : S → Prop} {Q Q' : A → S → Prop}
variable {m : Eff S E A}

theorem mono (h : Holds P m Q X) (hP : ∀ s, P' s → P s)
    (hQ : ∀ a s, Q a s → Q' a s) (hX : ∀ s, X s → X' s) : Holds P' m Q' X' := by
  intro s hs
  have hm := h s (hP s hs)
  cases hr : (m s).1 with
  | ok a =>
    rw [hr] at hm
    exact hQ a _ hm
  | error e =>
    rw [hr] at hm
    exact hX _ hm

theorem ret (a : A) (h : ∀ s, P s → Q a s) : Holds P (pure a : Eff S E A) Q X := h

theorem fail (e : E) (h : ∀ s, P s → X s) : Holds P (Eff.fail e : Eff S E A) Q X := h

theorem bind {k : A → Eff S E B} {R : B → S → Prop} (hm : Holds P m Q X)
    (hk : ∀ a, Holds (Q a) (k a) R X) : Holds P (m >>= k) R X := by
  intro s hs
  have hms := hm s hs
  rw [bind_run]
  cases hr : m s with
  | mk r s' =>
    rw [hr] at hms
    cases r with
    | ok a => exact hk a s' hms
    | error e => exact hms

theorem read {Q : S → S → Prop} (h : ∀ s, P s → Q s s) :
    Holds P (Eff.read : Eff S E S) Q X := h

theorem update (f : S → S) {Q : Unit → S → Prop} (h : ∀ s, P s → Q () (f s)) :
    Holds P (Eff.update f : Eff S E Unit) Q X := h

theorem total (f : S → A × S) (h : ∀ s, P s → Q (f s).1 (f s).2) :
    Holds P (Eff.total f : Eff S E A) Q X := h

theorem refuse (c : Prop) [Decidable c] (e : E) {Q : Unit → S → Prop} (hX : ∀ s, P s → X s)
    (hQ : ∀ s, P s → ¬ c → Q () s) : Holds P (Eff.refuse c e : Eff S E Unit) Q X := by
  unfold Eff.refuse
  split_ifs with hc
  · exact fail e hX
  · exact ret () fun s hs => hQ s hs hc

theorem need (e : E) (o : Option A) (hX : ∀ s, P s → X s) (hQ : ∀ a s, P s → o = some a → Q a s) :
    Holds P (Eff.need e o : Eff S E A) Q X := by
  cases o with
  | none => exact fail e hX
  | some a => exact ret a fun s hs => hQ a s hs rfl

theorem ofExcept (r : Except E A) (hX : ∀ s, P s → X s) (hQ : ∀ a s, P s → r = .ok a → Q a s) :
    Holds P (Eff.ofExcept r : Eff S E A) Q X := by
  cases r with
  | error e => exact fail e hX
  | ok a => exact ret a fun s hs => hQ a s hs rfl

end Holds

/-! ### What a computation keeps -/

/-- The state before `m` and the state after it, whatever the outcome, are related by `R`. -/
def Keeps (R : S → S → Prop) (m : Eff S E A) : Prop := ∀ s, R s (m s).2

namespace Keeps

variable {R : S → S → Prop}
variable {m : Eff S E A}

theorem update (f : S → S) (h : ∀ s, R s (f s)) : Keeps R (Eff.update f : Eff S E Unit) := h

theorem attempt (h : Keeps R m) :
    Keeps R (Eff.attempt m : Eff S F (Except E A)) := h

theorem ignore (h : Keeps R m) : Keeps R (Eff.ignore m : Eff S F Unit) := h

theorem mapErr (f : E → F) (h : Keeps R m) : Keeps R (Eff.mapErr f m) := by
  intro s
  have hs := h s
  unfold Eff.mapErr
  split <;> simp_all

section Refl

variable [Std.Refl R]

theorem ret (a : A) : Keeps R (pure a : Eff S E A) := Std.Refl.refl

theorem fail (e : E) : Keeps R (Eff.fail e : Eff S E A) := Std.Refl.refl

theorem read : Keeps R (Eff.read : Eff S E S) := Std.Refl.refl

theorem refuse (c : Prop) [Decidable c] (e : E) : Keeps R (Eff.refuse c e : Eff S E Unit) := by
  unfold Eff.refuse
  split_ifs
  · exact fail e
  · exact ret ()

theorem need (e : E) (o : Option A) : Keeps R (Eff.need e o : Eff S E A) := by
  cases o with
  | none => exact fail e
  | some a => exact ret a

theorem ofExcept (r : Except E A) : Keeps R (Eff.ofExcept r : Eff S E A) := by
  cases r with
  | error e => exact fail e
  | ok a => exact ret a

end Refl

theorem bind [IsTrans S R] {k : A → Eff S E B} (hm : Keeps R m)
    (hk : ∀ a, Keeps R (k a)) : Keeps R (m >>= k) := by
  intro s
  have hms := hm s
  rw [bind_run]
  cases hr : m s with
  | mk r s' =>
    rw [hr] at hms
    cases r with
    | ok a => exact IsTrans.trans _ _ _ hms (hk a s')
    | error e => exact hms

/-- A triple for every start state gives a relation between start and end. -/
theorem ofHolds (h : ∀ s₀, Holds (· = s₀) m (fun _ => R s₀) (R s₀)) :
    Keeps R m := by
  intro s
  have hs := h s s rfl
  cases hr : (m s).1 with
  | ok a | error e =>
    rw [hr] at hs
    exact hs

/-- A computation that starts by reading the state. -/
theorem readBind {k : S → Eff S E A} (h : ∀ s, Holds (· = s) (k s) (fun _ => R s) (R s)) :
    Keeps R (Eff.read >>= k) :=
  ofHolds fun s₀ => .bind (Q := fun r s => r = s₀ ∧ s = s₀) (.read fun _ hs => ⟨hs, hs⟩)
    fun _ s hs =>
    hs.1 ▸ h s₀ s hs.2

/-- What comes after a condition that refuses may use that it does not hold. -/
theorem refuseBind [Std.Refl R] {c : Prop} [Decidable c] {e : E} {k : Unit → Eff S E A}
    (h : ¬ c → Keeps R (k ())) : Keeps R (Eff.refuse c e >>= k) := by
  unfold Eff.refuse
  split_ifs with hc
  · exact fail e
  · exact h hc

theorem ite {c : Prop} [Decidable c] {m n : Eff S E A} (hm : Keeps R m) (hn : Keeps R n) :
    Keeps R (if c then m else n) := by
  split_ifs
  · exact hm
  · exact hn

end Keeps

namespace Holds

variable {P X : S → Prop} {Q : A → S → Prop} {R : S → S → Prop}

theorem ofKeeps {m : Eff S E A} (h : Keeps R m) (hQ : ∀ a s s', P s → R s s' → Q a s')
    (hX : ∀ s s', P s → R s s' → X s') : Holds P m Q X := by
  intro s hs
  cases (m s).1 with
  | ok a => exact hQ a s _ hs (h s)
  | error e => exact hX s _ hs (h s)

end Holds

/-! ### What a computation returns -/

/-- Every value that `m` returns satisfies `Q`. -/
def Returns (m : Eff S E A) (Q : A → Prop) : Prop := ∀ s a, (m s).1 = .ok a → Q a

namespace Returns

variable {Q : A → Prop} {Q' : B → Prop}

theorem ret {a : A} (h : Q a) : Returns (pure a : Eff S E A) Q := fun _ _ ha =>
  Except.ok.inj ha ▸ h

theorem fail (e : E) : Returns (Eff.fail e : Eff S E A) Q := fun _ _ ha => nomatch ha

theorem bind {m : Eff S E A} {k : A → Eff S E B} (hm : Returns m Q)
    (hk : ∀ a, Q a → Returns (k a) Q') : Returns (m >>= k) Q' := by
  intro s b hb
  have hms := hm s
  rw [bind_run] at hb
  cases hr : m s with
  | mk r s' =>
    rw [hr] at hb hms
    cases r with
    | ok a => exact hk a (hms a rfl) s' b hb
    | error e => exact nomatch hb

/-- What is returned first does not matter. -/
theorem after {m : Eff S E A} {k : A → Eff S E B} (hk : ∀ a, Returns (k a) Q') :
    Returns (m >>= k) Q' := bind (Q := fun _ => True) (fun _ _ _ => trivial) fun a _ => hk a

theorem need (e : E) (o : Option A) (h : ∀ a, o = some a → Q a) :
    Returns (Eff.need e o : Eff S E A) Q := by
  cases o with
  | none => exact fail e
  | some a => exact ret (h a rfl)

theorem refuse (c : Prop) [Decidable c] (e : E) :
    Returns (Eff.refuse c e : Eff S E Unit) fun _ => ¬ c := by
  unfold Eff.refuse
  split_ifs with hc
  · exact fail e
  · exact ret hc

theorem ite {c : Prop} [Decidable c] {m n : Eff S E A} (hm : Returns m Q) (hn : Returns n Q) :
    Returns (if c then m else n) Q := by
  split_ifs
  · exact hm
  · exact hn

end Returns

/-! ### Computations that only decide -/

/-- The outcome of `m` is the same from every state, and `m` leaves the state alone. -/
def Decides (m : Eff S E A) (r : Except E A) : Prop := ∀ s, m s = (r, s)

theorem Decides.refuse (c : Prop) [Decidable c] (e : E) :
    Decides (Eff.refuse c e : Eff S E Unit) (if c then .error e else .ok ()) := by
  intro s
  unfold Eff.refuse
  split_ifs <;> rfl

theorem Decides.bind {m : Eff S E A} (hm : ∃ r, Decides m r)
    (hk : ∀ a, ∃ r, Decides (k a) r) : ∃ r, Decides (m >>= k) r := by
  obtain ⟨r, hr⟩ := hm
  cases r with
  | error e => exact ⟨.error e, fun s => bind_run_error (hr s)⟩
  | ok a =>
    obtain ⟨r', hr'⟩ := hk a
    exact ⟨r', fun s => (bind_run_ok (hr s)).trans (hr' s)⟩

/-! ### Computations that refuse -/

/-- From `s`, `m` fails with a `bad` error and leaves the state alone. -/
def Refuses (bad : E → Prop) (m : Eff S E A) (s : S) : Prop := ∃ e, bad e ∧ m s = (.error e, s)

/-- From `s`, `m` leaves the state alone; it fails with a `bad` error or returns a value with
`Q`. -/
def Peeks (bad : E → Prop) (m : Eff S E A) (s : S) (Q : A → Prop) : Prop :=
  Refuses bad m s ∨ ∃ a, Q a ∧ m s = (.ok a, s)

section

variable {bad : E → Prop} {s : S}
variable {k : A → Eff S E B}

theorem Peeks.read : Peeks bad (Eff.read : Eff S E S) s (s = ·) := Or.inr ⟨s, rfl, rfl⟩

theorem Peeks.need {e : E} (he : bad e) (o : Option A) :
    Peeks bad (Eff.need e o : Eff S E A) s (o = some ·) := by
  cases o with
  | none => exact Or.inl ⟨e, he, rfl⟩
  | some a => exact Or.inr ⟨a, rfl, rfl⟩

theorem Peeks.refuse {e : E} (he : bad e) (c : Prop) [Decidable c] :
    Peeks bad (Eff.refuse c e : Eff S E Unit) s fun _ => ¬ c := by
  unfold Eff.refuse
  split_ifs with hc
  · exact Or.inl ⟨e, he, rfl⟩
  · exact Or.inr ⟨(), hc, rfl⟩

theorem Refuses.fail {e : E} (he : bad e) : Refuses bad (Eff.fail e : Eff S E A) s := ⟨e, he, rfl⟩

theorem Refuses.bind {m : Eff S E A} {Q : A → Prop} (hm : Peeks bad m s Q)
    (hk : ∀ a, Q a → Refuses bad (k a) s) : Refuses bad (m >>= k) s := by
  rcases hm with ⟨e, he, hm⟩ | ⟨a, ha, hm⟩
  · exact ⟨e, he, bind_run_error hm⟩
  · obtain ⟨e, he, hrun⟩ := hk a ha
    exact ⟨e, he, (bind_run_ok hm).trans hrun⟩

theorem Peeks.bind {m : Eff S E A} {Q : A → Prop} {R : B → Prop}
    (hm : Peeks bad m s Q) (hk : ∀ a, Q a → Peeks bad (k a) s R) : Peeks bad (m >>= k) s R := by
  rcases hm with ⟨e, he, hm⟩ | ⟨a, ha, hm⟩
  · exact Or.inl ⟨e, he, bind_run_error hm⟩
  · rcases hk a ha with ⟨e, he, hrun⟩ | ⟨b, hb, hrun⟩
    · exact Or.inl ⟨e, he, (bind_run_ok hm).trans hrun⟩
    · exact Or.inr ⟨b, hb, (bind_run_ok hm).trans hrun⟩

/-- A computation of which a first part refuses. -/
theorem Refuses.first {m : Eff S E A} (hm : Refuses bad m s) :
    Refuses bad (m >>= k) s := by
  obtain ⟨e, he, hm⟩ := hm
  exact ⟨e, he, bind_run_error hm⟩

end

end Eff
