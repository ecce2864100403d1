import Mathlib.Data.List.Perm.Basic
import Mathlib.Tactic

/-!
# Requests that are completed later

A request is issued under a key, waits among the fresh ones until it is watched, and is completed
once.  Two lists of keys are kept beside it: those that can still be called off, and those that
were called off and wait for their completion.  `State.Sound` ties the lists together, and each
step keeps it: what was issued is completed or waits, each request once, and the keys that can be
called off are those that wait and have not been.
-/

namespace Pending

/-- The requests that were issued, those that are completed, watched or fresh, and the keys that
were called off or can be. -/
structure State (α κ : Type) where
  issued : List α
  finals : List α
  watched : List α
  fresh : List α
  done : List κ
  active : List κ

variable {α κ : Type} [DecidableEq κ]

/-- A list without the one element of its key. -/
theorem filter_ne_key {key : α → κ} {l r : List α} {a : α}
    (h : ((l ++ a :: r).map key).Nodup) :
    ((l ++ a :: r).map key).filter (· ≠ key a) = (l ++ r).map key := by
  have hperm : ((l ++ a :: r).map key).Perm (key a :: (l ++ r).map key) := by
    rw [← List.map_cons]
    exact List.perm_middle.map key
  have hout : key a ∉ (l ++ r).map key := (List.nodup_cons.1 (hperm.nodup_iff.1 h)).1
  have hall : ∀ (m : List α), (∀ x ∈ m, x ∈ l ++ r) →
      (m.map key).filter (· ≠ key a) = m.map key := by
    intro m hm
    refine List.filter_eq_self.2 fun k hk => ?_
    obtain ⟨x, hx, rfl⟩ := List.mem_map.1 hk
    exact decide_eq_true fun heq => hout (heq ▸ List.mem_map_of_mem (hm x hx))
  rw [List.map_append, List.map_cons, List.filter_append, List.filter_cons_of_neg (by simp),
    hall l fun x hx => List.mem_append_left r hx, hall r fun x hx => List.mem_append_right l hx,
    List.map_append]

/-- A list of distinct keys without those of the elements that satisfy `p`. -/
theorem filter_notMem_map {β : Type} (f : β → κ) (l : List β) (p : β → Bool)
    (h : (l.map f).Nodup) :
    (l.map f).filter (· ∉ (l.filter p).map f) = (l.filter fun b => ¬ p b).map f := by
  rw [List.filter_map]
  congr 1
  refine List.filter_congr fun b hb => ?_
  have hiff : f b ∈ (l.filter p).map f ↔ p b = true := by
    constructor
    · intro hin
      obtain ⟨c, hc, heq⟩ := List.mem_map.1 hin
      obtain ⟨hmem, hp⟩ := List.mem_filter.1 hc
      obtain rfl := List.inj_on_of_nodup_map h hmem hb heq
      exact hp
    · exact fun hp => List.mem_map_of_mem (List.mem_filter.2 ⟨hb, hp⟩)
  exact decide_eq_decide.2 (not_congr hiff)

namespace State

/-- The requests that wait. -/
def waiting (s : State α κ) : List α := s.watched ++ s.fresh

/-- Every request is completed or waits, once, and the keys in `active` are those of the requests
that wait and were not called off, in their order. -/
structure Sound (key : α → κ) (s : State α κ) : Prop where
  perm : s.issued.Perm (s.finals ++ s.waiting)
  nodup : (s.issued.map key).Nodup
  active : s.active = (s.waiting.map key).filter (· ∉ s.done)
  done : ∀ k ∈ s.done, k ∈ s.issued.map key

namespace Sound

variable {key : α → κ} {s : State α κ}
variable {a : α}

theorem empty (key : α → κ) : Sound key ⟨[], [], [], [], [], []⟩ :=
  ⟨.refl _, List.nodup_nil, rfl, fun _ h => absurd h List.not_mem_nil⟩

section

variable (h : s.Sound key)
include h

theorem waiting_subset {k : κ} (hk : k ∈ s.waiting.map key) :
    k ∈ s.issued.map key := by
  obtain ⟨a, ha, rfl⟩ := List.mem_map.1 hk
  exact List.mem_map_of_mem (h.perm.symm.subset (List.mem_append_right _ ha))

theorem waiting_nodup : (s.waiting.map key).Nodup := by
  have hall := (h.perm.map key).nodup_iff.1 h.nodup
  rw [List.map_append] at hall
  exact (List.nodup_append.1 hall).2.1

theorem active_nodup : s.active.Nodup := by
  rw [h.active]
  exact h.waiting_nodup.filter _

/-- A request under a new key. -/
theorem issue (ha : key a ∉ s.issued.map key) :
    Sound key { s with
      issued := s.issued ++ [a], fresh := s.fresh ++ [a], active := s.active ++ [key a] } where
  perm := by
    have hperm := h.perm.append_right [a]
    simpa only [waiting, List.append_assoc] using hperm
  nodup := by
    rw [List.map_append, List.map_singleton]
    exact h.nodup.append (List.nodup_singleton _) (List.disjoint_singleton.2 ha)
  active := by
    have hout : key a ∉ s.done := fun hin => ha (h.done _ hin)
    have hwait : ({ s with issued := s.issued ++ [a], fresh := s.fresh ++ [a]
                           active := s.active ++ [key a] } : State α κ).waiting =
        s.waiting ++ [a] := by
      simp only [waiting, List.append_assoc]
    rw [hwait, List.map_append, List.filter_append, ← h.active]
    simp [hout]
  done := by
    intro k hk
    rw [List.map_append]
    exact List.mem_append_left _ (h.done k hk)

/-- Keys that can be called off are. -/
theorem callOff (gone : List κ) (hgone : ∀ k ∈ gone, k ∈ s.active) :
    Sound key { s with active := s.active.filter (· ∉ gone), done := s.done ++ gone } where
  perm := h.perm
  nodup := h.nodup
  active := by
    show s.active.filter (· ∉ gone) = (s.waiting.map key).filter (· ∉ s.done ++ gone)
    rw [h.active, List.filter_filter]
    refine List.filter_congr fun k _ => ?_
    simp [and_comm]
  done := by
    intro k hk
    rcases List.mem_append.1 hk with hk | hk
    · exact h.done k hk
    · have hactive := hgone k hk
      rw [h.active] at hactive
      exact h.waiting_subset (List.mem_of_mem_filter hactive)

/-- The oldest fresh request is watched. -/
theorem watch {rest : List α} (hfresh : s.fresh = a :: rest) :
    Sound key { s with watched := s.watched ++ [a], fresh := rest } := by
  have hwait : ({ s with watched := s.watched ++ [a], fresh := rest } : State α κ).waiting =
      s.waiting := by
    simp [waiting, hfresh]
  exact ⟨hwait ▸ h.perm, h.nodup, hwait ▸ h.active, h.done⟩

/-- One of the requests that wait is completed and cannot be called off any more. -/
theorem complete {t : State α κ} {l r : List α}
    (hissued : t.issued = s.issued) (hwait : s.waiting = l ++ a :: r)
    (hwait' : t.waiting = l ++ r) (hfinals : t.finals = s.finals ++ [a])
    (hdone : t.done = s.done) (hactive : t.active = s.active.filter (· ≠ key a)) :
    t.Sound key where
  perm := by
    have hperm : (a :: (l ++ r)).Perm s.waiting := by
      rw [hwait]
      exact List.perm_middle.symm
    rw [hissued, hwait', hfinals, List.append_assoc, List.singleton_append]
    exact h.perm.trans (hperm.symm.append_left _)
  nodup := hissued ▸ h.nodup
  active := by
    have hnodup := h.waiting_nodup
    rw [hwait] at hnodup
    rw [hactive, hdone, hwait', h.active, hwait, ← filter_ne_key hnodup, List.filter_filter,
      List.filter_filter]
    exact List.filter_congr fun k _ => Bool.and_comm _ _
  done := by
    rw [hissued, hdone]
    exact h.done

/-- The oldest fresh request cannot be watched, and is completed. -/
theorem reject {rest : List α} (hfresh : s.fresh = a :: rest) :
    Sound key { s with
      fresh := rest, finals := s.finals ++ [a], active := s.active.filter (· ≠ key a) } :=
  h.complete (l := s.watched) (r := rest) rfl (by rw [waiting, hfresh]) rfl rfl rfl rfl

/-- The request that was called off first is completed. -/
theorem finish {k : κ} {rest : List κ} (hdone : s.done = k :: rest)
    {l r : List α} (hwatched : s.watched = l ++ a :: r) (hk : key a = k) :
    Sound key { s with watched := l ++ r, finals := s.finals ++ [a], done := rest } := by
  have hwait : s.waiting = l ++ a :: (r ++ s.fresh) := by simp [waiting, hwatched]
  have hout := h.complete (t := { s with
      watched := l ++ r, finals := s.finals ++ [a], active := s.active.filter (· ≠ key a) })
    rfl hwait (by simp [waiting]) rfl rfl rfl
  refine ⟨hout.perm, hout.nodup, ?_, fun k' hk' => h.done k' (hdone ▸ List.mem_cons_of_mem k hk')⟩
  -- a key that was called off is not active, so removing it again changes nothing
  have hsame : s.active.filter (· ≠ key a) = s.active := by
    refine List.filter_eq_self.2 fun k' hk' => ?_
    rw [h.active, hdone] at hk'
    have hne := List.of_mem_filter hk'
    rw [hk]
    simp only [List.mem_cons, not_or, decide_eq_true_eq] at hne
    exact decide_eq_true hne.1
  have hactive := hout.active
  rw [hsame, hdone] at hactive
  rw [hactive]
  refine List.filter_congr fun k' hk' => ?_
  have hne : k' ≠ k := by
    rintro rfl
    have hnodup := h.waiting_nodup
    rw [hwait] at hnodup
    have hnot := filter_ne_key hnodup
    rw [hk, ← List.append_assoc] at hnot
    have hmem : k' ∈ ((l ++ r ++ s.fresh).map key) := hk'
    rw [← hnot] at hmem
    simpa using List.of_mem_filter hmem
  simp [hne]

/-- A key that was called off, but whose request was completed meanwhile, is skipped. -/
theorem skip {k : κ} {rest : List κ} (hdone : s.done = k :: rest)
    (hk : k ∉ s.waiting.map key) : Sound key { s with done := rest } where
  perm := h.perm
  nodup := h.nodup
  active := by
    show s.active = (s.waiting.map key).filter (· ∉ rest)
    rw [h.active, hdone]
    refine List.filter_congr fun k' hk' => ?_
    have hne : k' ≠ k := fun heq => hk (heq ▸ hk')
    simp [hne]
  done := fun k' hk' => h.done k' (hdone ▸ List.mem_cons_of_mem k hk')

/-- Watched requests are completed at once, in any order.  They are picked by what is watched, of
which the requests are a part. -/
theorem fire (hdone : s.done = []) {β : Type} {f : β → α} {ws : List β}
    (hwatched : s.watched = ws.map f) (p : β → Bool) {fired : List α}
    (hfired : fired.Perm ((ws.filter p).map f)) :
    Sound key { s with
      watched := (ws.filter fun b => ¬ p b).map f
      finals := s.finals ++ fired
      active := s.active.filter (· ∉ fired.map key) } where
  perm := by
    have hsplit : (fired ++ (ws.filter fun b => ¬ p b).map f).Perm s.watched := by
      have hparts := (List.filter_append_perm p ws).map f
      rw [List.map_append] at hparts
      rw [hwatched]
      refine (hfired.append_right _).trans ?_
      simpa using hparts
    have hall := (hsplit.append_right s.fresh).append_left s.finals
    refine h.perm.trans (hall.symm.trans (.of_eq ?_))
    simp [waiting]
  nodup := h.nodup
  active := by
    have hnodup := h.waiting_nodup
    rw [waiting, hwatched, List.map_append, List.map_map] at hnodup
    obtain ⟨hws, -, hdisj⟩ := List.nodup_append.1 hnodup
    have hin : ∀ k, k ∈ fired.map key ↔ k ∈ (ws.filter p).map (key ∘ f) := by
      intro k
      rw [← List.map_map]
      exact (hfired.map key).mem_iff
    have hfresh : ∀ a ∈ s.fresh, key a ∉ fired.map key := by
      intro a ha hmem
      obtain ⟨b, hb, heq⟩ := List.mem_map.1 ((hin _).1 hmem)
      exact hdisj _ (List.mem_map_of_mem (List.mem_of_mem_filter hb)) _
        (List.mem_map_of_mem ha) heq
    have hnone : ∀ l : List κ, l.filter (· ∉ ([] : List κ)) = l := fun l =>
      List.filter_eq_self.2 fun _ _ => by simp
    have hkeys : (ws.map (key ∘ f)).filter (· ∉ fired.map key) =
        (ws.filter fun b => ¬ p b).map (key ∘ f) := by
      rw [← filter_notMem_map (key ∘ f) ws p hws]
      exact List.filter_congr fun k _ => decide_eq_decide.2 (not_congr (hin k))
    show s.active.filter (· ∉ fired.map key) =
      (((ws.filter fun b => ¬ p b).map f ++ s.fresh).map key).filter (· ∉ s.done)
    rw [h.active, hdone, hnone, hnone, waiting, hwatched, List.map_append, List.map_append,
      List.filter_append, List.map_map, List.map_map, hkeys, List.filter_map]
    congr 2
    exact List.filter_eq_self.2 fun a ha => decide_eq_true (hfresh a ha)
  done := h.done

/-- When nothing is fresh or called off, the keys in `active` are those of the watched requests. -/
theorem active_eq (hfresh : s.fresh = []) (hdone : s.done = []) :
    s.active = s.watched.map key := by
  rw [h.active, hdone, waiting, hfresh, List.append_nil]
  exact List.filter_eq_self.2 fun _ _ => by simp

end

end Sound

end State

end Pending
