import RocketSmbd.Lib.Linked

/-!
# Packing records into a chain

A writer lays out records one after the other, each at a multiple of `a` bytes, notes where they
start and then fills in the distances in a second pass.

* `pack a` is the first pass and `stamp o` the second;
* `chain o a` links every record to the next one directly;
* `stamp_pack`: the two passes give the linked records;
* `isChain_chain`: a reader that follows the distances finds the records again.
-/

open ByteString

namespace Linked

/-- Lay out one more record: pad what is there, note the start, append. -/
def push (a : ℕ) (acc : Bytes × List ℕ) (b : Bytes) : Bytes × List ℕ :=
  (padTo a acc.1 ++ b, acc.2 ++ [(padTo a acc.1).length])

/-- The records laid out, and where they start. -/
def pack (a : ℕ) (bs : List Bytes) : Bytes × List ℕ := bs.foldl (push a) ([], [])

/-- Write the distance between each two successive starts into the record at the first. -/
def stamp (o : ℕ) : List ℕ → Bytes → Bytes
  | s :: t :: more, data => stamp o (t :: more) (patch data (s + o) (leBytes 4 (t - s)))
  | _, data => data

/-- Every record but the last linked to the one after it. -/
def chain (o a : ℕ) : List Bytes → List Bytes
  | b :: c :: bs => link o a b :: chain o a (c :: bs)
  | bs => bs

/-- `data` is a chain of aligned records that following the distances visits. -/
structure IsChain (o a : ℕ) (data : Bytes) (records : List Bytes) : Prop where
  follow : follow o data.length data = records
  flatten : records.flatten = data
  aligned : ∀ pre r post, records = pre ++ r :: post → pre.flatten.length % a = 0
  last : ∀ pre r post, records = pre ++ r :: post → (distance o r = 0 ↔ post = [])

variable {o a : ℕ} {bs : List Bytes}

/-! ### Two passes -/

/-- The records laid out, each but the last padded. -/
def laid (a : ℕ) : List Bytes → Bytes
  | b :: c :: bs => padTo a b ++ laid a (c :: bs)
  | [b] => b
  | [] => []

/-- Where they start, from `k` on. -/
def starts (a : ℕ) : ℕ → List Bytes → List ℕ
  | _, [] => []
  | k, b :: bs => k :: starts a (k + (padTo a b).length) bs

theorem padTo_append (ha : 0 < a) (b c : Bytes) :
    padTo a (padTo a b ++ c) = padTo a b ++ padTo a c := by
  have halign : (padTo a b).length % a = 0 := length_padTo ha
  have hlen : (padTo a b ++ c).length % a = c.length % a := by
    rw [List.length_append, Nat.add_mod, halign, Nat.zero_add, Nat.mod_mod]
  rw [padTo, hlen, List.append_assoc]
  rfl

theorem foldl_push (ha : 0 < a) (b : Bytes) (data : Bytes) (ss : List ℕ) :
    (b :: bs).foldl (push a) (data, ss) =
      (padTo a data ++ laid a (b :: bs), ss ++ starts a (padTo a data).length (b :: bs)) := by
  induction bs generalizing b data ss with
  | nil => rfl
  | cons c bs ih =>
    have hlen : (padTo a (padTo a data ++ b)).length =
        (padTo a data).length + (padTo a b).length := by
      rw [padTo_append ha, List.length_append]
    rw [List.foldl_cons, push, ih c, hlen, padTo_append ha]
    simp only [laid, starts, List.append_assoc, List.singleton_append]

/-- Stamping the starts of a layout links its records. -/
theorem stamp_laid (h : ∀ b ∈ bs, o + 4 ≤ b.length) (pre : Bytes) :
    stamp o (starts a pre.length bs) (pre ++ laid a bs) = pre ++ (chain o a bs).flatten := by
  induction bs generalizing pre with
  | nil => rfl
  | cons b bs ih =>
    cases bs with
    | nil => simp [starts, stamp, laid, chain]
    | cons c bs =>
      have hb : o + 4 ≤ b.length := h b List.mem_cons_self
      have hle : b.length ≤ (padTo a b).length := length_le_padTo
      have hpatch : patch (pre ++ (padTo a b ++ laid a (c :: bs))) (pre.length + o)
          (leBytes 4 (padTo a b).length) = (pre ++ link o a b) ++ laid a (c :: bs) := by
        rw [patch_append_right, patch_append_left, List.append_assoc, link]
        rw [leBytes_length]
        omega
      have hlen : (pre ++ link o a b).length = pre.length + (padTo a b).length := by
        rw [List.length_append, length_link hb]
      have hrest := ih (fun b hb => h b (List.mem_cons_of_mem _ hb)) (pre ++ link o a b)
      rw [hlen] at hrest
      rw [chain, List.flatten_cons, ← List.append_assoc pre, ← hrest, ← hpatch]
      simp only [laid, starts, stamp, Nat.add_sub_cancel_left]

theorem stamp_pack (ha : 0 < a) (h : ∀ b ∈ bs, o + 4 ≤ b.length) :
    stamp o (pack a bs).2 (pack a bs).1 = (chain o a bs).flatten := by
  cases bs with
  | nil => rfl
  | cons b bs =>
    have hnil : padTo a [] = [] := padTo_of_aligned (Nat.zero_mod a)
    rw [pack, foldl_push ha, hnil]
    exact stamp_laid h []

/-! ### Chains -/

/-- A record that starts with its distance, linked. -/
theorem link_head {f : Bytes} (a : ℕ) (b : Bytes) (hf : f.length = 4) :
    link 0 a (f ++ b) = leBytes 4 (padTo a (f ++ b)).length ++ b ++
      zeros ((a - (f ++ b).length % a) % a) := by
  have hpart := patch_part [] f (b ++ zeros ((a - (f ++ b).length % a) % a))
    (leBytes 4 (padTo a (f ++ b)).length) (by rw [leBytes_length, hf])
  rw [List.nil_append, List.nil_append, List.length_nil, ← List.append_assoc,
    ← List.append_assoc] at hpart
  exact hpart

theorem link_padTo (ha : 0 < a) (b : Bytes) : link o a (padTo a b) = link o a b := by
  rw [link, padTo_of_aligned (length_padTo ha), link]

theorem chain_concat (b : Bytes) : chain o a (bs ++ [b]) = bs.map (link o a) ++ [b] := by
  induction bs with
  | nil => rfl
  | cons c bs ih =>
    cases bs with
    | nil => rfl
    | cons d bs =>
      change link o a c :: chain o a (d :: bs ++ [b]) = _
      rw [ih]
      rfl

theorem mem_chain {r : Bytes} (hr : r ∈ chain o a bs) : ∃ b ∈ bs, r = b ∨ r = link o a b := by
  fun_induction chain o a bs with
  | case1 b c bs ih =>
    rcases List.mem_cons.1 hr with rfl | hr
    · exact ⟨b, List.mem_cons_self, Or.inr rfl⟩
    · obtain ⟨d, hd, hrd⟩ := ih hr
      exact ⟨d, List.mem_cons_of_mem _ hd, hrd⟩
  | case2 bs _ => exact ⟨r, hr, Or.inl rfl⟩

theorem chained_chain (hne : bs ≠ []) (h : ∀ b ∈ bs, o + 4 ≤ b.length ∧ distance o b = 0)
    (hlt : (chain o a bs).flatten.length < 256 ^ 4) : Chained o (chain o a bs) := by
  fun_induction chain o a bs with
  | case1 b c bs ih =>
    have hb := (h b List.mem_cons_self).1
    rw [List.flatten_cons, List.length_append, length_link hb] at hlt
    exact .cons (isLinked_link hb (by omega)) (ih (List.cons_ne_nil _ _)
      (fun d hd => h d (List.mem_cons_of_mem _ hd)) (by omega))
  | case2 bs hbs =>
    match bs, hne, hbs with
    | [b], _, _ => exact .last (h b List.mem_cons_self).2
    | b :: c :: bs, _, hbs => exact absurd rfl (hbs b c bs)

theorem dropLast_chain (ha : 0 < a) (h : ∀ b ∈ bs, o + 4 ≤ b.length) :
    ∀ r ∈ (chain o a bs).dropLast, r.length % a = 0 := by
  fun_induction chain o a bs with
  | case1 b c bs ih =>
    have hne : chain o a (c :: bs) ≠ [] := by
      cases bs <;> simp [chain]
    intro r hr
    rw [List.dropLast_cons_of_ne_nil hne] at hr
    rcases List.mem_cons.1 hr with rfl | hr
    · rw [length_link (h b List.mem_cons_self), length_padTo ha]
    · exact ih (fun d hd => h d (List.mem_cons_of_mem _ hd)) r hr
  | case2 bs hbs =>
    match bs, hbs with
    | [], _ => exact fun r hr => absurd hr List.not_mem_nil
    | [b], _ => exact fun r hr => absurd hr List.not_mem_nil
    | b :: c :: bs, hbs => exact absurd rfl (hbs b c bs)

/-- What a link does not change is read from the chain as from the records. -/
theorem map_chain {β : Type} (f : Bytes → β) (h : ∀ b ∈ bs, f (link o a b) = f b) :
    (chain o a bs).map f = bs.map f := by
  fun_induction chain o a bs with
  | case1 b c bs ih =>
    rw [List.map_cons, h b List.mem_cons_self, ih fun d hd => h d (List.mem_cons_of_mem _ hd)]
    rfl
  | case2 bs _ => rfl

/-- A chain is at least as long as each of its records. -/
theorem length_le_chain {b : Bytes} (h : ∀ b ∈ bs, o + 4 ≤ b.length) (hb : b ∈ bs) :
    b.length ≤ (chain o a bs).flatten.length := by
  fun_induction chain o a bs with
  | case1 c d bs ih =>
    have hle : c.length ≤ (padTo a c).length := length_le_padTo
    rw [List.flatten_cons, List.length_append, length_link (h c List.mem_cons_self)]
    rcases List.mem_cons.1 hb with rfl | hb
    · omega
    · have := ih (fun d hd => h d (List.mem_cons_of_mem _ hd)) hb
      omega
  | case2 bs _ => exact (List.sublist_flatten_of_mem hb).length_le

/-- Records that are not empty are no more than their bytes. -/
theorem length_le_flatten (h : ∀ b ∈ bs, 0 < b.length) : bs.length ≤ bs.flatten.length := by
  induction bs with
  | nil => exact Nat.zero_le _
  | cons b bs ih =>
    have hb := h b List.mem_cons_self
    have hbs := ih fun c hc => h c (List.mem_cons_of_mem _ hc)
    rw [List.length_cons, List.flatten_cons, List.length_append]
    omega

/-- A reader finds the records of a chain. -/
theorem isChain_chain (ha : 0 < a) (hne : bs ≠ [])
    (h : ∀ b ∈ bs, o + 4 ≤ b.length ∧ distance o b = 0)
    (hlt : (chain o a bs).flatten.length < 256 ^ 4) :
    IsChain o a (chain o a bs).flatten (chain o a bs) := by
  have hlen : ∀ b ∈ bs, o + 4 ≤ b.length := fun b hb => (h b hb).1
  have hpos : ∀ r ∈ chain o a bs, 0 < r.length := by
    intro r hr
    obtain ⟨b, hb, rfl | rfl⟩ := mem_chain hr
    · have := hlen r hb
      omega
    · have hle : b.length ≤ (padTo a b).length := length_le_padTo
      have := hlen b hb
      rw [length_link this]
      omega
  have hchained := chained_chain hne h hlt
  exact {
    follow := follow_of_chained hchained (length_le_flatten hpos)
    flatten := rfl
    aligned := fun _ _ _ heq => aligned_of_dropLast (dropLast_chain ha hlen) heq
    last := fun _ _ _ heq => hchained.distance_eq_zero heq }

end Linked
