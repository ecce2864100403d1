import RocketSmbd.Lib.SlabRun
import RocketSmbd.Vfs

/-!
# FileIds over the life of a handle table

A FileId is made of a slot and of the generation of the slot, 32 bits each.  `Trace` is a table
with the ids it has given out and those whose handles have left it.

* `bump_iterate`: the generations of a slot run through `1, …, 2 ^ 32 - 1` and start again.
* `ids_fresh_iff`: when no id is ever given out twice.
-/

namespace RocketSmbd

namespace Vfs

namespace HandleTable

variable {r : Slab.Run OpenFile}

/-! ### Calls -/

/-- A call on a table. -/
inductive Call
  | insert (of : OpenFile)
  | remove (id : UInt64) (treeId : UInt32)
  | takeAll

/-- The ids of the handles in the table. -/
def liveIds (t : HandleTable) : List UInt64 :=
  ((List.range t.slots.length).filter fun i => (t.at? i).isSome).map
    fun i => mkId (t.gens.getD i 0) i

/-- The slot that the next handle gets: the top of the free stack, or a new one. -/
def nextSlot (t : HandleTable) : ℕ := t.free.headD t.slots.length

/-- A table with its history: the ids it gave out, the slots it found for them, and the ids whose
handles were removed. -/
structure Trace where
  table : HandleTable
  issued : List UInt64
  slots : List ℕ
  removed : List UInt64

variable {c : Trace}

namespace Trace

def start : Trace := ⟨Slab.empty, [], [], []⟩

def step (c : Trace) : Call → Trace
  | .insert of =>
    { c with
      table := (c.table.insert of).2
      issued := c.issued ++ [(c.table.insert of).1]
      slots := c.slots ++ [c.table.nextSlot] }
  | .remove id treeId =>
    match c.table.remove id treeId with
    | none => c
    | some (_, table) => { c with table, removed := c.removed ++ [id] }
  | .takeAll => { c with table := c.table.takeAll.2, removed := c.removed ++ c.table.liveIds }

def run (calls : List Call) : Trace := calls.foldl step start

end Trace

/-! ### Generations -/

/-- How many generations a slot has. -/
def generations : ℕ := 2 ^ 32 - 1

/-- The generation of a slot that was emptied `n` times. -/
theorem bump_iterate (n : ℕ) : (bump^[n] 1).toNat = n % generations + 1 := by
  induction n with
  | zero => rfl
  | succ n ih =>
    rw [Function.iterate_succ_apply', bump]
    generalize bump^[n] 1 = g at ih
    have hsum : (g + 1).toNat = (g.toNat + 1) % 2 ^ 32 := by
      rw [UInt32.toNat_add]
      rfl
    have hzero : g + 1 = 0 ↔ (g + 1).toNat = 0 := (UInt32.toNat_inj (b := 0)).symm
    unfold generations at ih ⊢
    split_ifs with h
    · rw [hzero] at h
      have hone : (1 : UInt32).toNat = 1 := rfl
      omega
    · rw [hzero] at h
      omega

/-- The id of the fill number `n` of slot `i`. -/
def idOf (e : ℕ × ℕ) : UInt64 := mkId (bump^[e.2] 1) e.1

/-- An id says which slot it is for, and which fill of it, up to a round of the generations. -/
theorem idOf_inj {e e' : ℕ × ℕ} (he : e.1 < 2 ^ 32) (he' : e'.1 < 2 ^ 32) (h : idOf e = idOf e') :
    e.1 = e'.1 ∧ e.2 % generations = e'.2 % generations := by
  obtain ⟨hidx, hgen⟩ := mkId_parts (bump^[e.2] 1) he
  obtain ⟨hidx', hgen'⟩ := mkId_parts (bump^[e'.2] 1) he'
  unfold idOf at h
  rw [h] at hidx hgen
  have hnat := congrArg UInt32.toNat (hgen.symm.trans hgen')
  rw [bump_iterate, bump_iterate] at hnat
  exact ⟨hidx.symm.trans hidx', Nat.succ_injective hnat⟩

/-! ### The history of a table -/

theorem nextSlot_eq (t : HandleTable) (of : OpenFile) : t.nextSlot = (Slab.insert t of).1 := by
  unfold nextSlot Slab.insert
  split
  · next i free h =>
    show t.free.headD t.slots.length = i
    rw [h]
    rfl
  · next h =>
    show t.free.headD t.slots.length = t.slots.length
    rw [h]
    rfl

/-- A history is the run of a slab: an id is that of its slot and fill, and one whose handle was
removed is that of a fill that is over. -/
structure Trace.Sim (c : Trace) (r : Slab.Run OpenFile) : Prop where
  ok : r.Ok bump
  table : r.table = c.table
  issued : c.issued = r.log.map idOf
  slots : c.slots = r.log.map Prod.fst
  removed : ∀ id ∈ c.removed, ∃ i n, id = idOf (i, n) ∧ n < r.vacated i

namespace Trace.Sim

open Slab (Run)

variable {c : Trace} {r : Run OpenFile}

theorem insert (h : c.Sim r) (of : OpenFile) :
    (c.step (.insert of)).Sim (Run.step bump r (.insert of)) := by
  obtain ⟨-, hgen⟩ := h.ok.gen_insert bump of
  refine ⟨h.ok.insert bump of, ?_, ?_, ?_, fun id hid => ?_⟩
  · simp only [Run.step, h.table]
    rfl
  · have hid : (c.table.insert of).1 =
        idOf ((r.table.insert of).1, r.fills (r.table.insert of).1) := by
      rw [h.table] at hgen ⊢
      unfold HandleTable.insert idOf
      dsimp only
      rw [List.getD_eq_getElem?_getD, hgen]
      rfl
    simp only [step, Run.step, h.issued, hid, List.map_append, List.map_singleton]
  · simp only [step, Run.step, h.slots, nextSlot_eq _ of, h.table, List.map_append,
      List.map_singleton]
  · obtain ⟨i, n, rfl, hn⟩ := h.removed id hid
    exact ⟨i, n, rfl, hn.trans_le (h.ok.vacated_le_insert bump of i)⟩

/-- The id that a live slot has. -/
theorem mkId_slot (h : c.Sim r) {i : ℕ} (hi : (r.table.at? i).isSome) {gen : UInt32}
    (hgen : c.table.gens[i]? = some gen) : mkId gen i = idOf (i, r.vacated i) := by
  rw [← h.table, h.ok.gen i (Slab.lt_length_of_isSome hi)] at hgen
  rw [idOf, Option.some.inj hgen]

/-- Slots are emptied, and the ids of those that held a handle count as removed. -/
theorem vacate (h : c.Sim r) (l : List ℕ) (ids : List UInt64)
    (hids : ∀ id ∈ ids, ∃ i ∈ l, (r.table.at? i).isSome ∧ id = idOf (i, r.vacated i)) :
    Trace.Sim { c with table := l.foldl (Slab.vacate bump) c.table, removed := c.removed ++ ids }
      (Run.run bump (l.map .vacate) r) := by
  have hrun := Run.run_vacate bump l r
  have hover : ∀ i ∈ l, (Run.run bump (l.map .vacate) r).vacated i = r.fills i := by
    intro i hi
    have hnone : (Run.run bump (l.map .vacate) r).table.at? i = none := by
      rw [hrun, Slab.at?_foldl_vacate, if_pos hi]
    rw [Run.vacated_of_none hnone, hrun]
    rfl
  have hmono : ∀ i, r.vacated i ≤ (Run.run bump (l.map .vacate) r).vacated i := by
    intro i
    by_cases hi : i ∈ l
    · rw [hover i hi]
      exact r.vacated_le_fills i
    · rw [hrun, Run.vacated, Run.vacated, Slab.at?_foldl_vacate, if_neg hi]
      exact le_rfl
  refine ⟨h.ok.run bump _, ?_, ?_, ?_, fun id hid => ?_⟩
  · rw [hrun, ← h.table]
  · rw [hrun]
    exact h.issued
  · rw [hrun]
    exact h.slots
  · rcases List.mem_append.1 hid with hid | hid
    · obtain ⟨i, n, rfl, hn⟩ := h.removed id hid
      exact ⟨i, n, rfl, hn.trans_le (hmono i)⟩
    · obtain ⟨i, hi, hsome, rfl⟩ := hids id hid
      refine ⟨i, r.vacated i, rfl, ?_⟩
      rw [hover i hi]
      exact h.ok.vacated_lt_fills bump hsome

theorem step (h : c.Sim r) (call : Call) : ∃ r', (c.step call).Sim r' := by
  cases call with
  | insert of => exact ⟨_, h.insert of⟩
  | remove id treeId =>
    cases hfind : c.table.find id treeId with
    | none =>
      have hstep : c.step (.remove id treeId) = c := by
        simp only [Trace.step, HandleTable.remove, hfind, Option.map_none]
      rw [hstep]
      exact ⟨r, h⟩
    | some p =>
      obtain ⟨idx, of⟩ := p
      have hstep : c.step (.remove id treeId) =
          { c with table := c.table.vacate bump idx, removed := c.removed ++ [id] } := by
        simp only [Trace.step, HandleTable.remove, hfind, Option.map_some]
      rw [hstep]
      obtain ⟨hidx, hgen⟩ := find_slot hfind
      have hsome : (r.table.at? idx).isSome := by
        rw [h.table, (find_eq_some hfind).1]
        rfl
      refine ⟨_, h.vacate [idx] [id] fun id' hid' => ⟨idx, List.mem_singleton_self idx, hsome, ?_⟩⟩
      rw [List.mem_singleton.1 hid', ← h.mkId_slot hsome hgen, hidx, mkId_self]
  | takeAll =>
    refine ⟨_, h.vacate (List.range c.table.slots.length) c.table.liveIds fun id hid => ?_⟩
    obtain ⟨i, hi, rfl⟩ := List.mem_map.1 hid
    obtain ⟨hrange, hsome⟩ := List.mem_filter.1 hi
    rw [← h.table] at hsome
    have hgen := h.ok.gen i (Slab.lt_length_of_isSome hsome)
    rw [h.table] at hgen
    refine ⟨i, hrange, hsome, ?_⟩
    rw [List.getD_eq_getElem?_getD, hgen]
    rfl

end Trace.Sim

/-- Every history is the run of a slab. -/
theorem Trace.run_sim (calls : List Call) : ∃ r, (Trace.run calls).Sim r := by
  have hfold : ∀ (calls : List Call) (c : Trace), (∃ r, c.Sim r) →
      ∃ r, (calls.foldl Trace.step c).Sim r := by
    intro calls
    induction calls with
    | nil => exact fun c h => h
    | cons call calls ih =>
      rintro c ⟨r, h⟩
      exact ih _ (h.step call)
  refine hfold calls Trace.start ⟨Slab.Run.start, Slab.Run.ok_start bump, rfl, rfl, rfl, ?_⟩
  exact fun id hid => absurd hid List.not_mem_nil

/-! ### Reuse -/

/-- No id was given out twice, and none whose handle was removed means anything. -/
def Trace.Fresh (c : Trace) : Prop :=
  c.issued.Nodup ∧ ∀ id ∈ c.removed, ∀ treeId,
    c.table.get id treeId = none ∧ c.table.remove id treeId = none

/-- No slot was filled more often than it has generations, and slots fit their half of an id. -/
def Trace.Small (c : Trace) : Prop :=
  ∀ i ∈ c.slots, i < 2 ^ 32 ∧ c.slots.count i ≤ generations

theorem Trace.Sim.fills_eq (h : c.Sim r) (i : ℕ) :
    r.fills i = c.slots.count i := by
  rw [h.slots, List.count_eq_countP, List.countP_map]
  rfl

theorem Trace.Sim.fresh (h : c.Sim r) (hsmall : c.Small) :
    c.Fresh := by
  have hlog : ∀ e ∈ r.log, e.1 < 2 ^ 32 ∧ e.2 < generations := by
    intro e he
    have hmem : e.1 ∈ c.slots := h.slots ▸ List.mem_map_of_mem he
    obtain ⟨hslot, hcount⟩ := hsmall e.1 hmem
    rw [← h.fills_eq] at hcount
    exact ⟨hslot, ((h.ok.log e.1 e.2).1 he).trans_le hcount⟩
  have hinj : ∀ e ∈ r.log, ∀ e' ∈ r.log, idOf e = idOf e' → e = e' := by
    intro e he e' he' heq
    obtain ⟨hslot, hgen⟩ := hlog e he
    obtain ⟨hslot', hgen'⟩ := hlog e' he'
    obtain ⟨hi, hn⟩ := idOf_inj hslot hslot' heq
    rw [Nat.mod_eq_of_lt hgen, Nat.mod_eq_of_lt hgen'] at hn
    exact Prod.ext hi hn
  constructor
  · rw [h.issued]
    exact List.Nodup.map_on hinj h.ok.nodup
  · intro id hid treeId
    have hfind : c.table.find id treeId = none := by
      refine Option.eq_none_iff_forall_ne_some.2 fun p hp => ?_
      obtain ⟨hidx, hgen⟩ := find_slot hp
      have hsome : (r.table.at? p.1).isSome := by
        rw [h.table, (find_eq_some hp).1]
        rfl
      have hlive : id = idOf (p.1, r.vacated p.1) := by
        rw [← h.mkId_slot hsome hgen, hidx, mkId_self]
      obtain ⟨i, n, hover, hn⟩ := h.removed id hid
      -- both fills are in the log, where ids differ
      have hfills := h.ok.vacated_lt_fills bump hsome
      have hmem := (h.ok.log p.1 (r.vacated p.1)).2 hfills
      have hmem' := (h.ok.log i n).2 (hn.trans_le (r.vacated_le_fills i))
      obtain ⟨hi, hn'⟩ := Prod.mk.inj (hinj _ hmem _ hmem' (hlive.symm.trans hover))
      subst hi
      omega
    exact ⟨by rw [get, hfind]; rfl, by rw [remove, hfind]; rfl⟩

theorem Trace.Sim.small (h : c.Sim r) (hnodup : c.issued.Nodup) : c.Small := by
  have hinj : ∀ e ∈ r.log, ∀ e' ∈ r.log, idOf e = idOf e' → e = e' :=
    List.inj_on_of_nodup_map (h.issued ▸ hnodup)
  intro i hi
  have hpos : 0 < r.fills i := by
    rw [h.fills_eq]
    exact List.count_pos_iff.2 hi
  constructor
  · by_contra hlarge
    -- slot 2 ^ 32 is in use as well, and its first id is that of slot 0
    have hlen := (h.ok.filled i).1 hpos
    have hmem := (h.ok.log 0 0).2 ((h.ok.filled 0).2 (by omega))
    have hmem' := (h.ok.log (2 ^ 32) 0).2 ((h.ok.filled (2 ^ 32)).2 (by omega))
    exact absurd (hinj _ hmem _ hmem' (by decide)) (by decide)
  · by_contra hmany
    rw [← h.fills_eq] at hmany
    have hmem := (h.ok.log i 0).2 hpos
    have hmem' := (h.ok.log i generations).2 (by omega)
    have hgen : bump^[0] 1 = bump^[generations] 1 := by
      apply UInt32.toNat_inj.1
      rw [bump_iterate, bump_iterate]
      rfl
    have heq := hinj _ hmem _ hmem' (by rw [idOf, idOf, hgen])
    have hne : (0 : ℕ) ≠ generations := by decide
    exact hne (congrArg Prod.snd heq)

/-- **Reuse of FileIds.**  After any calls on a table, the ids it has given out are distinct and
those of removed handles mean nothing, if and only if no slot was filled more than `2 ^ 32 - 1`
times and there were never more than `2 ^ 32` slots. -/
theorem ids_fresh_iff (calls : List Call) : (Trace.run calls).Fresh ↔ (Trace.run calls).Small := by
  obtain ⟨r, h⟩ := Trace.run_sim calls
  exact ⟨fun hfresh => h.small hfresh.1, h.fresh⟩

/-! ### A slot that goes once round its generations -/

/-- The same file is opened and everything closed, `n` times. -/
def rounds (of : OpenFile) (n : ℕ) : List Call := (List.replicate n [.insert of, .takeAll]).flatten

theorem rounds_succ (of : OpenFile) (n : ℕ) :
    rounds of (n + 1) = rounds of n ++ [.insert of, .takeAll] := by
  unfold rounds
  rw [List.replicate_succ', List.flatten_append, List.flatten_singleton]

/-- Slot 0 is the only one, it is free, and its ids are the removed ones. -/
structure Trace.Worn (c : Trace) (n : ℕ) : Prop where
  slots : c.table.slots = [none]
  gens : c.table.gens = [bump^[n] 1]
  free : c.table.free = [0]
  issued : c.issued = (List.range n).map fun j => mkId (bump^[j] 1) 0
  removed : c.removed = c.issued

theorem Trace.Worn.insert {n : ℕ} (h : c.Worn n) (of : OpenFile) :
    (c.table.insert of).1 = mkId (bump^[n] 1) 0 ∧
      (c.table.insert of).2.slots = [some of] ∧ (c.table.insert of).2.gens = [bump^[n] 1] ∧
      (c.table.insert of).2.free = [] := by
  obtain ⟨⟨slots, gens, free, hnodup, hvacant⟩, issued, taken, removed⟩ := c
  obtain ⟨rfl, rfl, rfl, -, -⟩ := h
  exact ⟨rfl, rfl, rfl, rfl⟩

theorem takeAll_single {t : HandleTable} {of : OpenFile} {gen : UInt32}
    (hslots : t.slots = [some of]) (hgens : t.gens = [gen]) (hfree : t.free = []) :
    t.takeAll.2.slots = [none] ∧ t.takeAll.2.gens = [bump gen] ∧ t.takeAll.2.free = [0] ∧
      t.liveIds = [mkId gen 0] := by
  obtain ⟨slots, gens, free, hnodup, hvacant⟩ := t
  obtain rfl : slots = _ := hslots
  obtain rfl : gens = _ := hgens
  obtain rfl : free = _ := hfree
  exact ⟨rfl, rfl, rfl, rfl⟩

theorem run_rounds (of : OpenFile) (n : ℕ) : (Trace.run (rounds of (n + 1))).Worn (n + 1) := by
  induction n with
  | zero => exact ⟨rfl, rfl, rfl, rfl, rfl⟩
  | succ n ih =>
    obtain ⟨hid, hslots, hgens, hfree⟩ := ih.insert of
    obtain ⟨hslots', hgens', hfree', hids⟩ := takeAll_single hslots hgens hfree
    have hrun : Trace.run (rounds of (n + 1 + 1)) =
        ((Trace.run (rounds of (n + 1))).step (.insert of)).step .takeAll := by
      rw [rounds_succ, Trace.run, List.foldl_append]
      rfl
    have hissued : ((Trace.run (rounds of (n + 1))).step (.insert of)).issued =
        (List.range (n + 1 + 1)).map fun j => mkId (bump^[j] 1) 0 := by
      rw [List.range_succ, List.map_append, ← ih.issued, List.map_singleton, ← hid]
      rfl
    rw [hrun]
    refine ⟨hslots', ?_, hfree', hissued, ?_⟩
    · rw [Function.iterate_succ_apply']
      exact hgens'
    · have hlast : (((Trace.run (rounds of (n + 1))).step (.insert of)).step .takeAll).removed =
          (Trace.run (rounds of (n + 1))).issued ++ [mkId (bump^[n + 1] 1) 0] := by
        rw [← hids, ← ih.removed]
        rfl
      rw [hlast, ← hid]
      rfl

/-- Where the generation comes back to 1, the first id comes back. -/
theorem rounds_again (of : OpenFile) (n : ℕ) (hgen : bump^[n + 1] 1 = 1) :
    let c := Trace.run (rounds of (n + 1) ++ [.insert of])
    ¬ c.issued.Nodup ∧ mkId 1 0 ∈ c.removed ∧ c.table.get (mkId 1 0) of.treeId = some of := by
  have h := run_rounds of n
  obtain ⟨hid, hslots, hgens, -⟩ := h.insert of
  have hrun : Trace.run (rounds of (n + 1) ++ [.insert of]) =
      (Trace.run (rounds of (n + 1))).step (.insert of) := by
    rw [Trace.run, List.foldl_append]
    rfl
  have hfirst : mkId 1 0 ∈ (Trace.run (rounds of (n + 1))).issued := by
    rw [h.issued]
    exact List.mem_map.2 ⟨0, List.mem_range.2 (Nat.succ_pos n), rfl⟩
  rw [hgen] at hid hgens
  rw [hrun]
  refine ⟨fun hnodup => ?_, h.removed ▸ hfirst, ?_⟩
  · have hdisj := (List.nodup_append.1 hnodup).2.2
    exact hdisj _ hfirst _ (List.mem_singleton_self _) hid.symm
  · obtain ⟨hidx, hgen'⟩ := mkId_parts 1 (by decide : 0 < 2 ^ 32)
    refine get_eq_some.2 ⟨?_, ?_, rfl⟩
    · rw [hidx, hgen']
      exact congrArg (fun l : List UInt32 => l[0]?) hgens
    · rw [hidx, Slab.at?_eq_some]
      exact congrArg (fun l : List (Option OpenFile) => l[0]?) hslots

/-- The file that is opened again and again. -/
def worn : OpenFile where
  fd := 3
  path := []
  rel := []
  leaf := []
  shareIdx := 0
  treeId := 1
  isDir := true
  writable := false
  deleteOnClose := false
  dir := none
  oplockIno := none
  leaseKey := none
  leaseGranted := 0
  serial := 0

/-- After `2 ^ 32 - 1` rounds the next handle gets the id of the first, which was removed. -/
theorem first_id_again :
    let c := Trace.run (rounds worn (2 ^ 32 - 1) ++ [.insert worn])
    ¬ c.issued.Nodup ∧ mkId 1 0 ∈ c.removed ∧ c.table.get (mkId 1 0) 1 = some worn := by
  obtain ⟨n, hn⟩ : ∃ n, 2 ^ 32 - 1 = n + 1 := ⟨2 ^ 32 - 2, by norm_num⟩
  have hgen : bump^[n + 1] 1 = 1 := by
    apply UInt32.toNat_inj.1
    rw [bump_iterate, ← hn]
    rfl
  rw [hn]
  exact rounds_again worn n hgen

end HandleTable

end Vfs

end RocketSmbd
