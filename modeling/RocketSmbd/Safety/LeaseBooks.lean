import RocketSmbd.Lease

/-!
# Conservation of leases

The registry of leases maps a file to a list of grants.  `LeaseBook` is the registry with what was
ever granted and what has left it, and why: a grant is replaced by one with its key, broken by a
conflicting access, released by the close of its handle or with its connection.  In every sequence
of calls what was granted is in the registry or has left it, each grant once.
-/

namespace RocketSmbd

open ByteString FinMap

/-- A call on the registry. -/
inductive LeaseOp
  | grant (key : LeaseFile) (g : LeaseGrant)
  | breakConflicts (key : LeaseFile) (writerKey : Option Bytes)
  | release (key : LeaseFile) (leaseKey : Bytes)
  | releaseConn (wid idx : ℕ) (gen : UInt16)

/-- Why a grant leaves the registry. -/
inductive Departure
  | replaced
  | broken
  | released
  | disconnected
  deriving DecidableEq

namespace LeaseTable

variable {m : LeaseTable} {v : List LeaseGrant}

/-- The registry after a call. -/
def perform (m : LeaseTable) : LeaseOp → LeaseTable
  | .grant key g => grant key g m
  | .breakConflicts key writerKey => (breakConflicts key writerKey m).2
  | .release key leaseKey => release key leaseKey m
  | .releaseConn wid idx gen => releaseConn wid idx gen m

/-- What a call adds. -/
def arrivals : LeaseOp → List (LeaseFile × LeaseGrant)
  | .grant key g => [(key, g)]
  | _ => []

/-- The grants that a call is to remove, and why. -/
def departures (m : LeaseTable) : LeaseOp → List (Departure × LeaseFile × LeaseGrant)
  | .grant key g =>
    ((listAt m key).filter fun e => e.leaseKey = g.leaseKey).map fun e => (.replaced, key, e)
  | .breakConflicts key writerKey =>
    ((listAt m key).filter fun e => writerKey ≠ some e.leaseKey).map fun e => (.broken, key, e)
  | .release key leaseKey =>
    ((listAt m key).filter fun e => e.leaseKey = leaseKey).map fun e => (.released, key, e)
  | .releaseConn wid idx gen =>
    ((pairs m).filter fun e => heldBy wid idx gen e.2).map fun e => (.disconnected, e)

/-- A file has one grant for a lease key, and none has an empty list. -/
def Tidy (m : LeaseTable) : Prop :=
  ∀ key v, m.lookup key = some v → v ≠ [] ∧ (v.map LeaseGrant.leaseKey).Nodup

theorem tidy_empty : Tidy ∅ := fun _ _ h => nomatch h

/-! ### One grant for a lease key -/

/-- A refreshed grant takes the place of the one with its key. -/
theorem setGrant_perm (g : LeaseGrant) (hv : (v.map LeaseGrant.leaseKey).Nodup) :
    (setGrant g v).Perm (g :: v.filter fun e => e.leaseKey ≠ g.leaseKey) := by
  induction v with
  | nil => exact .refl _
  | cons e v ih =>
    rw [List.map_cons, List.nodup_cons] at hv
    unfold setGrant
    split_ifs with hkey
    · have hrest : v.filter (fun e => e.leaseKey ≠ g.leaseKey) = v := by
        refine List.filter_eq_self.2 fun x hx => decide_eq_true fun heq => hv.1 ?_
        rw [hkey, ← heq]
        exact List.mem_map_of_mem hx
      rw [List.filter_cons_of_neg (by simpa using hkey), hrest]
    · rw [List.filter_cons_of_pos (by simpa using hkey)]
      exact ((ih hv.2).cons e).trans (.swap g e _)

theorem nodup_setGrant (g : LeaseGrant)
    (hv : (v.map LeaseGrant.leaseKey).Nodup) : ((setGrant g v).map LeaseGrant.leaseKey).Nodup := by
  refine ((setGrant_perm g hv).map _).nodup_iff.2 ?_
  rw [List.map_cons, List.nodup_cons]
  refine ⟨fun hin => ?_, ?_⟩
  · obtain ⟨e, he, hkey⟩ := List.mem_map.1 hin
    exact absurd hkey (by simpa using List.of_mem_filter he)
  · exact hv.sublist (List.filter_sublist.map _)

theorem Tidy.listAt (h : Tidy m) (key : LeaseFile) :
    ((listAt m key).map LeaseGrant.leaseKey).Nodup := by
  unfold FinMap.listAt
  cases hlook : m.lookup key with
  | none => exact List.nodup_nil
  | some v => exact (h key v hlook).2

theorem Tidy.storeAt (h : Tidy m) (key : LeaseFile)
    (hv : (v.map LeaseGrant.leaseKey).Nodup) : Tidy (storeAt key v m) := by
  intro key' v' hlook
  unfold FinMap.storeAt at hlook
  split_ifs at hlook with hempty
  · rw [FinMap.lookup_erase] at hlook
    split_ifs at hlook
    exact h key' v' hlook
  · rw [FinMap.lookup_insert] at hlook
    split_ifs at hlook
    · obtain rfl := Option.some.inj hlook
      exact ⟨by simpa using hempty, hv⟩
    · exact h key' v' hlook

/-- **A call keeps the registry tidy.** -/
theorem Tidy.perform (h : Tidy m) (op : LeaseOp) : Tidy (m.perform op) := by
  have hfilter : ∀ key (p : LeaseGrant → Bool),
      (((FinMap.listAt m key).filter p).map LeaseGrant.leaseKey).Nodup :=
    fun key p => (h.listAt key).sublist (List.filter_sublist.map _)
  cases op with
  | grant key g =>
    rw [LeaseTable.perform, grant_eq]
    exact h.storeAt key (nodup_setGrant g (h.listAt key))
  | breakConflicts key writerKey =>
    rw [LeaseTable.perform, breakConflicts_eq]
    exact h.storeAt key (hfilter key _)
  | release key leaseKey =>
    rw [LeaseTable.perform, release_eq]
    exact h.storeAt key (hfilter key _)
  | releaseConn wid idx gen =>
    intro key v hlook
    obtain ⟨v', hlook', hv⟩ := FinMap.lookup_filterMap hlook
    dsimp only at hv
    split_ifs at hv with hempty
    obtain rfl := Option.some.inj hv
    exact ⟨by simpa using hempty, (h key v' hlook').2.sublist (List.filter_sublist.map _)⟩

/-- A new grant comes in, and the one with its key leaves. -/
theorem Tidy.conserved_grant (h : Tidy m) (key : LeaseFile) (g : LeaseGrant) :
    (pairs m ++ [(key, g)]).Perm (pairs (grant key g m) ++
      ((FinMap.listAt m key).filter fun e => e.leaseKey = g.leaseKey).map (Prod.mk key)) := by
  have hold := pairs_perm m key
  have hnew := (setGrant_perm g (h.listAt key)).map (Prod.mk key)
  have hsplit := (List.filter_append_perm (fun e : LeaseGrant => decide (e.leaseKey = g.leaseKey))
    (FinMap.listAt m key)).map (Prod.mk key)
  rw [grant_eq, pairs_storeAt]
  refine List.perm_iff_count.2 fun x => ?_
  have hold := hold.count_eq x
  have hnew := hnew.count_eq x
  have hsplit := hsplit.count_eq x
  simp only [List.map_append, List.count_append, List.map_cons, List.count_cons, List.count_nil,
    decide_not] at hold hnew hsplit ⊢
  omega

/-- **A call conserves grants**: those in the registry and the one that it adds are in the registry
after it, or depart. -/
theorem Tidy.conserved (h : Tidy m) (op : LeaseOp) :
    (pairs m ++ arrivals op).Perm
      (pairs (m.perform op) ++ (m.departures op).map Prod.snd) := by
  cases op with
  | grant key g =>
    simp only [arrivals, LeaseTable.perform, departures, List.map_map]
    exact h.conserved_grant key g
  | breakConflicts key writerKey =>
    have hsplit := pairs_storeAt_filter key
      (fun g : LeaseGrant => decide (writerKey = some g.leaseKey)) m
    simp only [arrivals, LeaseTable.perform, departures, breakConflicts_eq, List.map_map,
      List.append_nil]
    refine hsplit.symm.trans (.of_eq ?_)
    simp [Function.comp_def]
  | release key leaseKey =>
    have hsplit := pairs_storeAt_filter key (fun g : LeaseGrant => decide (g.leaseKey ≠ leaseKey)) m
    simp only [arrivals, LeaseTable.perform, departures, release_eq, List.map_map, List.append_nil]
    refine hsplit.symm.trans (.of_eq ?_)
    simp [Function.comp_def]
  | releaseConn wid idx gen =>
    have hstay : pairs (m.perform (.releaseConn wid idx gen)) =
        (pairs m).filter fun e => ¬ heldBy wid idx gen e.2 :=
      pairs_filterMap (fun g => ¬ heldBy wid idx gen g) m
    rw [hstay]
    simp only [arrivals, departures, List.map_map, List.append_nil]
    refine List.Perm.trans ?_ List.perm_append_comm
    have hsplit := List.filter_append_perm (fun e : LeaseFile × LeaseGrant =>
      heldBy wid idx gen e.2) (pairs m)
    simpa [Function.comp_def] using hsplit.symm

end LeaseTable

/-! ### Books -/

/-- The registry, everything that was granted, and everything that has left. -/
structure LeaseBook where
  table : LeaseTable
  granted : List (LeaseFile × LeaseGrant)
  departed : List (Departure × LeaseFile × LeaseGrant)

namespace LeaseBook

def start : LeaseBook := ⟨∅, [], []⟩

def step (b : LeaseBook) (op : LeaseOp) : LeaseBook where
  table := b.table.perform op
  granted := b.granted ++ LeaseTable.arrivals op
  departed := b.departed ++ b.table.departures op

def run (ops : List LeaseOp) : LeaseBook := ops.foldl step start

/-- The books balance. -/
structure Balanced (b : LeaseBook) : Prop where
  tidy : b.table.Tidy
  conserved : b.granted.Perm (pairs b.table ++ b.departed.map Prod.snd)

theorem balanced_start : start.Balanced := ⟨LeaseTable.tidy_empty, .refl _⟩

theorem Balanced.step {b : LeaseBook} (h : b.Balanced) (op : LeaseOp) : (b.step op).Balanced where
  tidy := h.tidy.perform op
  conserved := by
    have hstep := h.tidy.conserved op
    refine List.perm_iff_count.2 fun x => ?_
    have hstep := hstep.count_eq x
    have hold := h.conserved.count_eq x
    simp only [LeaseBook.step, List.map_append, List.count_append] at hstep hold ⊢
    omega

/-- **The books of every run balance.** -/
theorem run_balanced (ops : List LeaseOp) : (run ops).Balanced := by
  have hrun : ∀ (ops : List LeaseOp) (b : LeaseBook), b.Balanced →
      (ops.foldl LeaseBook.step b).Balanced := by
    intro ops
    induction ops with
    | nil => exact fun _ h => h
    | cons op ops ih => exact fun b h => ih _ (h.step op)
  exact hrun ops start balanced_start

end LeaseBook

/-- The message tells the holder of the grant that its lease is broken to none. -/
structure BreakMsg.Breaks (g : LeaseGrant) (b : BreakMsg) : Prop where
  leaseKey : b.leaseKey = g.leaseKey
  curState : b.curState = g.state
  newState : b.newState = 0
  sessionId : b.sessionId = g.sessionId
  conn : b.wid = g.wid ∧ b.connIdx = g.connIdx ∧ b.connGen = g.connGen
  epoch : b.epoch.toNat = (g.epoch.toNat + 1) % 2 ^ 16

theorem LeaseGrant.break_breaks (g : LeaseGrant) : g.break.Breaks g :=
  ⟨rfl, rfl, rfl, rfl, ⟨rfl, rfl, rfl⟩, UInt16.toNat_add g.epoch 1⟩

/-- **Leases are conserved.**  After every sequence of calls no file has two grants with one lease
key or an empty list; what was granted is in the registry or has departed, each grant once; and a
conflicting access to a file removes the grants with other keys and returns one break for each, and
leaves the other files alone. -/
theorem lease_conservation (ops : List LeaseOp) :
    let b := LeaseBook.run ops
    (∀ key v, b.table.lookup key = some v → v ≠ [] ∧ (v.map LeaseGrant.leaseKey).Nodup) ∧
    b.granted.Perm (pairs b.table ++ b.departed.map Prod.snd) ∧
    ∀ key writerKey,
      let out := LeaseTable.breakConflicts key writerKey b.table
      List.Forall₂ BreakMsg.Breaks
        ((listAt b.table key).filter fun g => writerKey ≠ some g.leaseKey) out.1 ∧
      listAt out.2 key = (listAt b.table key).filter (fun g => writerKey = some g.leaseKey) ∧
      ∀ key', key' ≠ key → out.2.lookup key' = b.table.lookup key' := by
  intro b
  obtain ⟨htidy, hconserved⟩ := LeaseBook.run_balanced ops
  refine ⟨htidy, hconserved, fun key writerKey => ?_⟩
  rw [LeaseTable.breakConflicts_eq]
  refine ⟨?_, ?_, fun key' hne => ?_⟩
  · rw [List.forall₂_map_right_iff]
    exact List.forall₂_same.2 fun g _ => g.break_breaks
  · exact listAt_storeAt ..
  · exact lookup_storeAt_ne hne ..

end RocketSmbd
