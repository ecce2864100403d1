import Mathlib.Data.List.Basic

/-!
# Cutting a stream into messages

`next c b` reads the length of the first message of `b`, prefix included, under the limit `c`: it
is `none` while the prefix is not complete, and an error for a prefix that is not acceptable.
`Split` cuts complete messages off the front of a stream.  Its log has every message, without the
`skip` elements of its prefix, and the limit that is in force after it.
-/

namespace Framing

variable {κ α ε : Type} (next : κ → List α → Except ε (Option ℕ)) (skip : ℕ)

/-- The messages in the log are the first ones of the stream, and `rest` is what follows. -/
inductive Split : κ → List α → List (List α × κ) → κ → List α → Prop
  | nil (c : κ) (b : List α) : Split c b [] c b
  | cons {c c' c'' : κ} {b rest : List α} {log : List (List α × κ)} {n : ℕ}
      (hnext : next c b = .ok (some n)) (hn : n ≤ b.length)
      (h : Split c' (b.drop n) log c'' rest) :
    Split c b (((b.take n).drop skip, c') :: log) c'' rest

variable {next skip}

/-- More of the stream arrives: a length that is known does not change. -/
theorem Split.append (hmono : ∀ c b d n, next c b = .ok (some n) → next c (b ++ d) = .ok (some n))
    {c c' : κ} {b rest : List α} {log : List (List α × κ)} (h : Split next skip c b log c' rest)
    (d : List α) : Split next skip c (b ++ d) log c' (rest ++ d) := by
  induction h with
  | nil c b => exact .nil c (b ++ d)
  | cons hnext hn _ ih =>
    have hlen := Nat.le_trans hn (Nat.le_add_right _ d.length)
    rw [← List.length_append] at hlen
    rw [← List.drop_append_of_le_length hn] at ih
    rw [← List.take_append_of_le_length hn]
    exact .cons (hmono _ _ d _ hnext) hlen ih

/-- One more message is cut off. -/
theorem Split.snoc {c c' : κ} {b rest : List α} {log : List (List α × κ)}
    (h : Split next skip c b log c' rest) {n : ℕ} (hnext : next c' rest = .ok (some n))
    (hn : n ≤ rest.length) (c'' : κ) :
    Split next skip c b (log ++ [((rest.take n).drop skip, c'')]) c'' (rest.drop n) := by
  induction h with
  | nil c b => exact .cons hnext hn (.nil c'' _)
  | cons hnext' hn' _ ih => exact .cons hnext' hn' (ih hnext hn)

/-- If `enc` restores the prefix of a message, the stream is that of the messages, and the rest. -/
theorem Split.flatMap (enc : List α → List α)
    (henc : ∀ c b n, next c b = .ok (some n) → n ≤ b.length → enc ((b.take n).drop skip) = b.take n)
    {c c' : κ} {b rest : List α} {log : List (List α × κ)} (h : Split next skip c b log c' rest) :
    b = (log.flatMap fun e => enc e.1) ++ rest := by
  induction h with
  | nil c b => rfl
  | cons hnext hn _ ih =>
    rw [List.flatMap_cons, henc _ _ _ hnext hn, List.append_assoc, ← ih, List.take_append_drop]

end Framing
