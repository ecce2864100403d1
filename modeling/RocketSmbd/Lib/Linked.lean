import RocketSmbd.Lib.ByteString

/-!
# Chains of records

Records that lie one after the other in a byte string.  A 32-bit field at offset `o` of each record
holds the distance to the next one and is zero in the last.

* `link o a b` is the record `b` padded to a multiple of `a` and linked to the one after it;
* `follow o` walks a chain by its distances;
* `follow_of_chained`: on a well-formed chain the walk visits exactly the records;
* `follow_of_dangling`: if the last record is linked like the others, the walk goes on to an empty
  record after it.
-/

open ByteString

namespace Linked

/-- The distance to the next record. -/
def distance (o : ℕ) (b : Bytes) : ℕ := leNat (b.extract o (o + 4))

/-- Pad a record to a multiple of `a` bytes. -/
def padTo (a : ℕ) (b : Bytes) : Bytes := b ++ zeros ((a - b.length % a) % a)

/-- Pad a record and link it to the one after it. -/
def link (o a : ℕ) (b : Bytes) : Bytes := patch (padTo a b) o (leBytes 4 (padTo a b).length)

/-- The records that a walk by the distances visits; the last one takes what is left. -/
def follow (o : ℕ) : ℕ → Bytes → List Bytes
  | 0, _ => []
  | fuel + 1, b =>
    if distance o b = 0 then [b]
    else b.take (distance o b) :: follow o fuel (b.drop (distance o b))

/-- A record that is linked to the one right after it. -/
structure IsLinked (o : ℕ) (b : Bytes) : Prop where
  length : o + 4 ≤ b.length
  distance : distance o b = b.length

/-- Every record is linked but the last, whose distance is zero. -/
inductive Chained (o : ℕ) : List Bytes → Prop
  | last {b : Bytes} (h : distance o b = 0) : Chained o [b]
  | cons {b : Bytes} {bs : List Bytes} (h : IsLinked o b) (hbs : Chained o bs) :
    Chained o (b :: bs)

variable {o a : ℕ} {b : Bytes} {bs : List Bytes}

/-! ### Walks -/

theorem distance_append (h : o + 4 ≤ b.length) (rest : Bytes) :
    distance o (b ++ rest) = distance o b := by
  rw [distance, extract_append_left b rest o (o + 4) h, distance]

/-- The walk passes a linked record. -/
theorem follow_linked (h : IsLinked o b) (rest : Bytes) (fuel : ℕ) :
    follow o (fuel + 1) (b ++ rest) = b :: follow o fuel rest := by
  have hd := (distance_append h.length rest).trans h.distance
  have hpos : b.length ≠ 0 := by
    have := h.length
    omega
  rw [follow, hd, if_neg hpos, List.take_left, List.drop_left]

theorem follow_of_chained (h : Chained o bs) {fuel : ℕ} (hfuel : bs.length ≤ fuel) :
    follow o fuel bs.flatten = bs := by
  induction h generalizing fuel with
  | last h =>
    obtain ⟨fuel, rfl⟩ := Nat.exists_eq_add_of_le' hfuel
    simp [follow, h]
  | cons h _ ih =>
    obtain ⟨fuel, rfl⟩ : ∃ n, fuel = n + 1 := Nat.exists_eq_add_of_le' (by
      rw [List.length_cons] at hfuel
      omega)
    rw [List.flatten_cons, follow_linked h, ih (by simpa using hfuel)]

theorem follow_of_dangling (h : ∀ b ∈ bs, IsLinked o b) {fuel : ℕ} (hfuel : bs.length < fuel) :
    follow o fuel bs.flatten = bs ++ [[]] := by
  induction bs generalizing fuel with
  | nil =>
    obtain ⟨fuel, rfl⟩ := Nat.exists_eq_add_of_le' (Nat.succ_le_of_lt hfuel)
    simp [follow, distance, leNat]
  | cons b bs ih =>
    obtain ⟨fuel, rfl⟩ : ∃ n, fuel = n + 1 := Nat.exists_eq_add_of_le' (by omega)
    rw [List.flatten_cons, follow_linked (h b List.mem_cons_self),
      ih (fun b hb => h b (List.mem_cons_of_mem _ hb)) (by simpa using hfuel), List.cons_append]

theorem chained_append_last (h : ∀ b ∈ bs, IsLinked o b) (hb : distance o b = 0) :
    Chained o (bs ++ [b]) := by
  induction bs with
  | nil => exact .last hb
  | cons c cs ih =>
    exact .cons (h c List.mem_cons_self) (ih fun b hb => h b (List.mem_cons_of_mem _ hb))

/-- What keeps lengths and distances keeps chains. -/
theorem Chained.congr {bs' : List Bytes} (h : Chained o bs)
    (hsame : List.Forall₂ (fun b b' => b'.length = b.length ∧ distance o b' = distance o b)
      bs bs') :
    Chained o bs' := by
  induction h generalizing bs' with
  | last h =>
    cases hsame with
    | cons hb hbs =>
      cases hbs with
      | nil => exact .last (hb.2.trans h)
  | cons h _ ih =>
    cases hsame with
    | cons hb hbs =>
      exact .cons ⟨hb.1 ▸ h.length, hb.2.trans (h.distance.trans hb.1.symm)⟩ (ih hbs)

/-- In a chain exactly the last distance is zero. -/
theorem Chained.distance_eq_zero (h : Chained o bs) {pre post : List Bytes}
    (heq : bs = pre ++ b :: post) : distance o b = 0 ↔ post = [] := by
  induction h generalizing pre with
  | last h =>
    cases pre with
    | nil =>
      obtain ⟨rfl, rfl⟩ := List.cons.inj heq
      simpa using h
    | cons _ _ => simp at heq
  | cons h hbs ih =>
    cases pre with
    | nil =>
      obtain ⟨rfl, rfl⟩ := List.cons.inj heq
      have hlen := h.length
      have hdist := h.distance
      cases hbs <;> simp <;> omega
    | cons _ _ => exact ih (List.cons.inj heq).2

/-- Records whose lengths are multiples of `a`, the last one apart, start at multiples of `a`. -/
theorem aligned_of_dropLast {pre post : List Bytes} (h : ∀ b ∈ bs.dropLast, b.length % a = 0)
    (heq : bs = pre ++ b :: post) : pre.flatten.length % a = 0 := by
  have hpre : ∀ c ∈ pre, c.length % a = 0 := by
    intro c hc
    refine h c ?_
    rw [heq, List.dropLast_append_of_ne_nil (List.cons_ne_nil _ _)]
    exact List.mem_append_left _ hc
  clear heq h
  induction pre with
  | nil => simp
  | cons c cs ih =>
    rw [List.flatten_cons, List.length_append, Nat.add_mod, hpre c List.mem_cons_self,
      ih fun d hd => hpre d (List.mem_cons_of_mem _ hd)]
    simp

/-! ### Links -/

theorem length_padTo (ha : 0 < a) : (padTo a b).length % a = 0 := by
  have hlt := Nat.mod_lt b.length ha
  rw [padTo, List.length_append, zeros_length]
  rcases Nat.eq_zero_or_pos (b.length % a) with hz | hpos
  · rw [hz, Nat.sub_zero, Nat.mod_self, Nat.add_zero, hz]
  · rw [Nat.mod_eq_of_lt (by omega : a - b.length % a < a), Nat.add_mod,
      Nat.mod_eq_of_lt (by omega : a - b.length % a < a), Nat.add_sub_cancel' hlt.le, Nat.mod_self]

theorem padTo_of_aligned (h : b.length % a = 0) : padTo a b = b := by
  rw [padTo, h, Nat.sub_zero, Nat.mod_self]
  exact List.append_nil b

theorem length_le_padTo : b.length ≤ (padTo a b).length := by
  rw [padTo, List.length_append]
  omega

theorem length_link (h : o + 4 ≤ b.length) : (link o a b).length = (padTo a b).length := by
  have hle : b.length ≤ (padTo a b).length := length_le_padTo
  rw [link, patch_length]
  rw [leBytes_length]
  omega

theorem isLinked_link (h : o + 4 ≤ b.length) (hlt : (padTo a b).length < 256 ^ 4) :
    IsLinked o (link o a b) := by
  have hle : b.length ≤ (padTo a b).length := length_le_padTo
  refine ⟨by rw [length_link h]; omega, ?_⟩
  have hfield : (link o a b).extract o (o + 4) = leBytes 4 (padTo a b).length := by
    have htake : (List.take o (padTo a b)).length = o := by
      rw [List.length_take]
      omega
    have hpart := extract_part ((padTo a b).take o) (leBytes 4 (padTo a b).length)
      ((padTo a b).drop (o + 4))
    rw [htake, leBytes_length] at hpart
    rwa [link, patch, leBytes_length]
  rw [distance, hfield, leNat_leBytes, length_link h, Nat.mod_eq_of_lt hlt]

/-- What lies behind the distance is as in the record. -/
theorem extract_link {i j : ℕ} (hi : o + 4 ≤ i) (h : o + 4 ≤ b.length) (hj : j ≤ b.length) :
    (link o a b).extract i j = b.extract i j := by
  have hle : b.length ≤ (padTo a b).length := length_le_padTo
  rw [link, extract_patch_after]
  · exact extract_append_left _ _ _ _ hj
  · rw [leBytes_length]
    omega
  · rw [leBytes_length]
    omega

/-- Linking a linked record changes nothing. -/
theorem link_link (ha : 0 < a) (h : o + 4 ≤ b.length) : link o a (link o a b) = link o a b := by
  have hle : b.length ≤ (padTo a b).length := length_le_padTo
  have haligned : (link o a b).length % a = 0 := by rw [length_link h, length_padTo ha]
  rw [link, padTo_of_aligned haligned, length_link h, link, patch_patch]
  rw [leBytes_length]
  omega

end Linked
