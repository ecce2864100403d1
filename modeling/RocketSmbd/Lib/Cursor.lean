import RocketSmbd.Lib.ByteString

/-!
# Readers with a position in a buffer

A reader walks through a fixed buffer and fails or gives a value and a new position.

* `Steady panic p`: what `p` gives depends only on the bytes up to the position it stops at, it
  fails on every shorter buffer, and it never fails with `panic`;
* `Reads p w v`: `p` gives `v` on what `w` writes, whatever stands before and behind.  A writer
  depends on the position it starts at, so that it can align what it writes.

Both are closed under sequencing.
-/

open ByteString

/-- A reader with errors in `E`. -/
abbrev Cursor (E : Type) := ReaderT Bytes (StateT ℕ (Except E))

namespace Cursor

variable {E α β : Type}
variable {k : α → Cursor E β} {p : Cursor E α}

/-- The next `n` bytes, or the error `short`. -/
def take (short : E) (n : ℕ) : Cursor E Bytes := fun b i =>
  match slice b i (i + n) with
  | some s => .ok (s, i + n)
  | none => .error short

/-- `n` values, one after the other. -/
def many (p : Cursor E α) : ℕ → Cursor E (List α)
  | 0 => pure []
  | n + 1 => do
    let x ← p
    let xs ← many p n
    pure (x :: xs)

theorem bind_run (p : Cursor E α) (k : α → Cursor E β) (b : Bytes) (i : ℕ) :
    (p >>= k) b i = match p b i with
      | .ok x => k x.1 b x.2
      | .error err => .error err := by
  change (p b i >>= fun x => k x.1 b x.2) = _
  cases p b i <;> rfl

theorem bind_eq_ok {b : Bytes} {i : ℕ} {y : β × ℕ} :
    (p >>= k) b i = .ok y ↔ ∃ a j, p b i = .ok (a, j) ∧ k a b j = .ok y := by
  rw [bind_run]
  cases p b i with
  | ok x => exact ⟨fun h => ⟨x.1, x.2, rfl, h⟩, fun ⟨a, j, hx, h⟩ => by
      obtain rfl := Except.ok.inj hx
      exact h⟩
  | error err => simp

/-! ### Readers that see what they read -/

structure Steady (panic : E) (p : Cursor E α) : Prop where
  bounds : ∀ {b i v j}, i ≤ b.length → p b i = .ok (v, j) → i ≤ j ∧ j ≤ b.length
  stable : ∀ {b c i v j}, i ≤ b.length → p b i = .ok (v, j) → b.take j <+: c → p c i = .ok (v, j)
  cut : ∀ {b c i v j}, p b i = .ok (v, j) → c <+: b → i ≤ c.length → c.length < j →
    ∃ err, p c i = .error err
  sound : ∀ {b i}, i ≤ b.length → p b i ≠ .error panic

variable {panic : E}

theorem steady_pure (a : α) : Steady panic (pure a : Cursor E α) where
  bounds := by
    intro b i v j hi h
    obtain ⟨rfl, rfl⟩ := Prod.mk.inj (Except.ok.inj h)
    exact ⟨le_rfl, hi⟩
  stable := fun _ h _ => h
  cut := by
    intro b c i v j h _ hi hj
    obtain ⟨rfl, rfl⟩ := Prod.mk.inj (Except.ok.inj h)
    omega
  sound := fun _ h => by cases h

theorem steady_throw {err : E} (h : err ≠ panic) :
    Steady panic (throw err : Cursor E α) where
  bounds := fun _ h => by cases h
  stable := fun _ h _ => by cases h
  cut := fun h _ _ _ => by cases h
  sound := fun _ heq => h (Except.error.inj heq)

/-- The position itself. -/
theorem steady_get : Steady panic (get : Cursor E ℕ) where
  bounds := by
    intro b i v j hi h
    obtain ⟨rfl, rfl⟩ := Prod.mk.inj (Except.ok.inj h)
    exact ⟨le_rfl, hi⟩
  stable := fun _ h _ => h
  cut := by
    intro b c i v j h _ hi hj
    obtain ⟨rfl, rfl⟩ := Prod.mk.inj (Except.ok.inj h)
    omega
  sound := fun _ h => by cases h

theorem Steady.bind (hp : Steady panic p)
    (hk : ∀ a, Steady panic (k a)) : Steady panic (p >>= k) where
  bounds := by
    intro b i v j hi h
    obtain ⟨a, m, ha, hv⟩ := bind_eq_ok.1 h
    have hm := hp.bounds hi ha
    have hj := (hk a).bounds hm.2 hv
    omega
  stable := by
    intro b c i v j hi h hc
    obtain ⟨a, m, ha, hv⟩ := bind_eq_ok.1 h
    have hm := hp.bounds hi ha
    have hj := (hk a).bounds hm.2 hv
    have hshort : b.take m <+: c := (List.take_prefix_take_left hj.1).trans hc
    exact bind_eq_ok.2 ⟨a, m, hp.stable hi ha hshort, (hk a).stable hm.2 hv hc⟩
  cut := by
    intro b c i v j h hc hi hj
    obtain ⟨a, m, ha, hv⟩ := bind_eq_ok.1 h
    rw [bind_run]
    by_cases hm : c.length < m
    · obtain ⟨err, herr⟩ := hp.cut ha hc hi hm
      exact ⟨err, by rw [herr]⟩
    · -- the first reader reads the same, and the second one fails
      have hle := hi.trans hc.length_le
      have hpre : b.take m <+: c := by
        rw [List.prefix_iff_eq_take.1 hc, List.prefix_take_iff]
        exact ⟨List.take_prefix .., by rw [List.length_take]; omega⟩
      rw [hp.stable hle ha hpre]
      exact (hk a).cut hv hc (by omega) hj
  sound := by
    intro b i hi
    rw [bind_run]
    cases ha : p b i with
    | error err =>
      intro h
      exact hp.sound hi (by rw [ha, Except.error.inj h])
    | ok x => exact (hk x.1).sound (hp.bounds hi ha).2

theorem steady_take {short : E} (h : short ≠ panic) (n : ℕ) : Steady panic (take short n) := by
  have hok : ∀ {b i v j}, take short n b i = .ok (v, j) ↔
      i + n ≤ b.length ∧ v = (b.take (i + n)).drop i ∧ j = i + n := by
    intro b i v j
    rw [take, slice]
    by_cases hle : i + n ≤ b.length
    · simp [hle, eq_comm]
    · simp [hle]
  refine ⟨fun hi hv => ?_, fun hi hv hc => ?_, fun hv hc hi hj => ?_, fun hi heq => ?_⟩
  · obtain ⟨hle, -, rfl⟩ := hok.1 hv
    omega
  · obtain ⟨hle, rfl, rfl⟩ := hok.1 hv
    have hlen := hc.length_le
    rw [List.length_take, Nat.min_eq_left hle] at hlen
    have hsame := List.prefix_iff_eq_take.1 hc
    rw [List.length_take, Nat.min_eq_left hle] at hsame
    exact hok.2 ⟨hlen, by rw [hsame], rfl⟩
  · obtain ⟨hle, rfl, rfl⟩ := hok.1 hv
    refine ⟨short, ?_⟩
    rw [take, slice, if_neg (by omega)]
  · rw [take, slice] at heq
    split_ifs at heq
    exact h (Except.error.inj heq)

theorem Steady.many (hp : Steady panic p) (n : ℕ) :
    Steady panic (Cursor.many p n) := by
  induction n with
  | zero => exact steady_pure []
  | succ n ih => exact hp.bind fun _ => ih.bind fun _ => steady_pure _

theorem Steady.ite {c : Prop} [Decidable c] {p q : Cursor E α} (hp : Steady panic p)
    (hq : Steady panic q) : Steady panic (if c then p else q) := by
  split_ifs
  · exact hp
  · exact hq

/-! ### Reading what was written -/

/-- What is written from a position on. -/
abbrev Writer := ℕ → Bytes

namespace Writer

/-- Nothing. -/
def nil : Writer := fun _ => []

/-- One after the other. -/
def seq (v w : Writer) : Writer := fun i => v i ++ w (i + (v i).length)

/-- Some bytes, wherever they stand. -/
def raw (b : Bytes) : Writer := fun _ => b

def all (ws : List Writer) : Writer := ws.foldr seq nil

end Writer

def Reads (p : Cursor E α) (w : Writer) (v : α) : Prop :=
  ∀ pre post, p (pre ++ w pre.length ++ post) pre.length =
    .ok (v, pre.length + (w pre.length).length)

theorem reads_pure (a : α) : Reads (pure a : Cursor E α) Writer.nil a := by
  intro pre post
  rfl

/-- What comes after a reader that reads what was written, runs where that ends. -/
theorem Reads.andThen {v : Writer} {a : α} (hp : Reads p v a)
    (k : α → Cursor E β) (w : Writer) (pre post : Bytes) :
    (p >>= k) (pre ++ v.seq w pre.length ++ post) pre.length =
      k a (pre ++ v pre.length ++ w (pre ++ v pre.length).length ++ post)
        (pre ++ v pre.length).length := by
  have hfirst := hp pre (w (pre ++ v pre.length).length ++ post)
  have hsplit : pre ++ v.seq w pre.length ++ post =
      pre ++ v pre.length ++ (w (pre ++ v pre.length).length ++ post) := by
    rw [Writer.seq, List.length_append, ← List.append_assoc, List.append_assoc (pre ++ _)]
  rw [bind_run, hsplit, hfirst, ← List.length_append]
  simp only [List.append_assoc]

theorem Reads.bind {v w : Writer} {a : α} {y : β}
    (hp : Reads p v a) (hk : Reads (k a) w y) : Reads (p >>= k) (v.seq w) y := by
  intro pre post
  rw [hp.andThen k w pre post, hk (pre ++ v pre.length) post]
  simp only [Writer.seq, List.length_append, Nat.add_assoc]

theorem Writer.seq_nil (w : Writer) : w.seq .nil = w := by
  funext i
  exact List.append_nil _

theorem Reads.map {w : Writer} {a : α} (hp : Reads p w a) (f : α → β) :
    Reads (do let x ← p; pure (f x)) w (f a) := by
  rw [← w.seq_nil]
  exact hp.bind (reads_pure (f a))

theorem reads_take (short : E) (s : Bytes) : Reads (take short s.length) (.raw s) s := by
  intro pre post
  have hlen : pre.length + s.length ≤ (pre ++ s ++ post).length := by
    simp only [List.length_append]
    omega
  have htake : (pre ++ s ++ post).take (pre.length + s.length) = pre ++ s := by
    rw [← List.length_append, List.take_left]
  rw [take, Writer.raw, slice, if_pos ⟨by omega, hlen⟩, htake, List.drop_left]

theorem reads_many {ws : List Writer} {vs : List α}
    (h : List.Forall₂ (Reads p) ws vs) : Reads (many p vs.length) (.all ws) vs := by
  induction h with
  | nil => exact reads_pure []
  | cons hx _ ih => exact hx.bind (ih.map _)

end Cursor
