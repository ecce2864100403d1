import RocketSmbd.Lib.ListMap
import RocketSmbd.Os

/-!
# Leases and their breaks (`lease.rs`)

The file-keyed lease registry shared by all workers, and the mailboxes through which a break
raised on one worker reaches the connection of another.
-/

namespace RocketSmbd

open ByteString FinMap

/-- A pending lease break to deliver to a connection owned by worker `wid`. -/
structure BreakMsg where
  wid : ℕ
  connIdx : ℕ
  connGen : UInt16
  leaseKey : Bytes
  curState : UInt32
  newState : UInt32
  epoch : UInt16
  sessionId : UInt64
  deriving DecidableEq

/-- A granted lease on a file, and where its holder's connection lives. -/
structure LeaseGrant where
  leaseKey : Bytes
  state : UInt32
  epoch : UInt16
  sessionId : UInt64
  wid : ℕ
  connIdx : ℕ
  connGen : UInt16
  deriving DecidableEq

/-- The share index and inode of a leased file. -/
abbrev LeaseFile := UInt32 × UInt64

/-- The leases of each file. -/
abbrev LeaseTable := FinMap LeaseFile (List LeaseGrant)

/-- The message that breaks a grant to none. -/
def LeaseGrant.break (g : LeaseGrant) : BreakMsg :=
  { wid := g.wid
    connIdx := g.connIdx
    connGen := g.connGen
    leaseKey := g.leaseKey
    curState := g.state
    newState := 0
    epoch := g.epoch + 1
    sessionId := g.sessionId }

namespace LeaseTable

/-- Replace the first grant with the key of `g`, or append `g`. -/
def setGrant (g : LeaseGrant) : List LeaseGrant → List LeaseGrant
  | [] => [g]
  | e :: v => if e.leaseKey = g.leaseKey then g :: v else e :: setGrant g v

/-- Grant (or refresh) a lease: one per file and lease key. -/
def grant (key : LeaseFile) (g : LeaseGrant) (m : LeaseTable) : LeaseTable :=
  m.insert key (setGrant g ((m.lookup key).getD []))

/-- Break every lease on `key` with a key other than `writerKey`; a file without grants has no
entry. -/
def breakConflicts (key : LeaseFile) (writerKey : Option Bytes) (m : LeaseTable) :
    List BreakMsg × LeaseTable :=
  match m.lookup key with
  | none => ([], m)
  | some v =>
    ((v.filter fun g => writerKey ≠ some g.leaseKey).map LeaseGrant.break,
      storeAt key (v.filter fun g => writerKey = some g.leaseKey) m)

/-- Release one lease (on CLOSE). -/
def release (key : LeaseFile) (leaseKey : Bytes) (m : LeaseTable) : LeaseTable :=
  match m.lookup key with
  | none => m
  | some v => storeAt key (v.filter fun g => g.leaseKey ≠ leaseKey) m

/-- The grant is held by the connection in slot `idx`, generation `gen`, of worker `wid`. -/
def heldBy (wid idx : ℕ) (gen : UInt16) (g : LeaseGrant) : Bool :=
  g.wid = wid ∧ g.connIdx = idx ∧ g.connGen = gen

/-- Release every lease held by a connection. -/
def releaseConn (wid idx : ℕ) (gen : UInt16) (m : LeaseTable) : LeaseTable :=
  m.filterMap fun _ v =>
    let v := v.filter fun g => ¬ heldBy wid idx gen g
    if v.isEmpty then none else some v

end LeaseTable

/-- One mailbox per worker: its queue of breaks, oldest first. -/
abbrev Mailboxes := List (List BreakMsg)

namespace Mailboxes

/-- Post a break to the mailbox of its worker, if there is one. -/
def post (mbs : Mailboxes) (b : BreakMsg) : Mailboxes := mbs.modify b.wid (· ++ [b])

/-- Take all queued breaks of a worker. -/
def drain (mbs : Mailboxes) (wid : ℕ) : List BreakMsg × Mailboxes :=
  (mbs.getD wid [], mbs.modify wid fun _ => [])

end Mailboxes

/-! ### Which grants are held, which breaks are queued -/

/-- The table holds the grant `g`. -/
def LeaseTable.Held (m : LeaseTable) (g : LeaseGrant) : Prop :=
  ∃ key v, m.lookup key = some v ∧ g ∈ v

/-- The table holds the grant `g` on file `key`. -/
def LeaseTable.HeldAt (m : LeaseTable) (key : LeaseFile) (g : LeaseGrant) : Prop :=
  ∃ v, m.lookup key = some v ∧ g ∈ v

/-- The break `b` waits in a mailbox. -/
def Mailboxes.Queued (mbs : Mailboxes) (b : BreakMsg) : Prop := ∃ q ∈ mbs, b ∈ q

namespace LeaseTable

variable {g : LeaseGrant} {key key' : LeaseFile} {m : LeaseTable} {v : List LeaseGrant}
  {wk : Option Bytes}

theorem not_held_empty (g : LeaseGrant) : ¬ Held ∅ g := by
  rintro ⟨key, v, h, -⟩
  simp at h

theorem mem_setGrant {g x : LeaseGrant} (h : x ∈ setGrant g v) :
    x = g ∨ x ∈ v := by
  induction v with
  | nil => exact Or.inl (List.mem_singleton.1 h)
  | cons e v ih =>
    unfold setGrant at h
    split_ifs at h with hkey
    · rcases List.mem_cons.1 h with rfl | h
      · exact Or.inl rfl
      · exact Or.inr (List.mem_cons_of_mem e h)
    · rcases List.mem_cons.1 h with rfl | h
      · exact Or.inr List.mem_cons_self
      · exact (ih h).imp_right (List.mem_cons_of_mem e)

theorem mem_setGrant_self (g : LeaseGrant) (v : List LeaseGrant) : g ∈ setGrant g v := by
  induction v with
  | nil => exact List.mem_singleton_self g
  | cons e v ih =>
    unfold setGrant
    split_ifs
    · exact List.mem_cons_self
    · exact List.mem_cons_of_mem e ih

/-! ### The calls, on the list of a file -/

theorem breakConflicts_eq (key : LeaseFile) (writerKey : Option Bytes) (m : LeaseTable) :
    breakConflicts key writerKey m =
      (((listAt m key).filter fun g => writerKey ≠ some g.leaseKey).map LeaseGrant.break,
        storeAt key ((listAt m key).filter fun g => writerKey = some g.leaseKey) m) := by
  unfold breakConflicts listAt
  cases h : m.lookup key with
  | none =>
    rw [Option.getD_none, List.filter_nil, List.filter_nil, storeAt_nil h]
    rfl
  | some v => rfl

theorem release_eq (key : LeaseFile) (leaseKey : Bytes) (m : LeaseTable) :
    release key leaseKey m =
      storeAt key ((listAt m key).filter fun g => g.leaseKey ≠ leaseKey) m := by
  unfold release listAt
  cases h : m.lookup key with
  | none =>
    rw [Option.getD_none, List.filter_nil, storeAt_nil h]
  | some v => rfl

theorem grant_eq (key : LeaseFile) (g : LeaseGrant) (m : LeaseTable) :
    grant key g m = storeAt key (setGrant g (listAt m key)) m := by
  rw [storeAt, if_neg (by simpa using List.ne_nil_of_mem (mem_setGrant_self g _))]
  rfl

theorem heldAt_iff : HeldAt m key g ↔ g ∈ listAt m key := by
  unfold HeldAt listAt
  cases m.lookup key <;> simp

/-- A file has the stored grants, and the others have theirs. -/
theorem heldAt_storeAt (h : HeldAt (storeAt key v m) key' g) :
    (key' = key ∧ g ∈ v) ∨ (key' ≠ key ∧ HeldAt m key' g) := by
  by_cases hk : key' = key
  · subst hk
    rw [heldAt_iff, listAt_storeAt] at h
    exact Or.inl ⟨rfl, h⟩
  · rw [HeldAt, lookup_storeAt_ne hk] at h
    exact Or.inr ⟨hk, h⟩

/-- Storing a part of a file's grants leaves that part, and what the other files have. -/
theorem heldAt_storeAt_filter {p : LeaseGrant → Bool}
    (h : HeldAt (storeAt key ((listAt m key).filter p) m) key' g) :
    HeldAt m key' g ∧ (key' = key → p g) := by
  rcases heldAt_storeAt h with ⟨rfl, hg⟩ | ⟨hk, h⟩
  · obtain ⟨hmem, hp⟩ := List.mem_filter.1 hg
    exact ⟨heldAt_iff.2 hmem, fun _ => hp⟩
  · exact ⟨h, fun heq => absurd heq hk⟩

theorem held_grant {g x : LeaseGrant} (h : Held (grant key g m) x) : x = g ∨ Held m x := by
  obtain ⟨key', h⟩ := h
  rw [grant_eq] at h
  rcases heldAt_storeAt h with ⟨-, hx⟩ | ⟨-, h⟩
  · exact (mem_setGrant hx).imp_right fun hx => ⟨key, heldAt_iff.2 hx⟩
  · exact Or.inr ⟨key', h⟩

/-- A released lease is not held. -/
theorem heldAt_release {lk : Bytes} (h : HeldAt (release key lk m) key' g) :
    HeldAt m key' g ∧ (key' = key → g.leaseKey ≠ lk) := by
  rw [release_eq] at h
  exact (heldAt_storeAt_filter h).imp_right fun hp hk => by simpa using hp hk

theorem heldAt_breakConflicts
    (h : HeldAt (breakConflicts key wk m).2 key' g) : HeldAt m key' g := by
  rw [breakConflicts_eq] at h
  exact (heldAt_storeAt_filter h).1

theorem held_release {lk : Bytes} (h : Held (release key lk m) g) : Held m g := by
  obtain ⟨key', h⟩ := h
  exact ⟨key', (heldAt_release h).1⟩

theorem held_breakConflicts (h : Held (breakConflicts key wk m).2 g) : Held m g := by
  obtain ⟨key', h⟩ := h
  exact ⟨key', heldAt_breakConflicts h⟩

/-- Every break that a conflict raises is that of a grant. -/
theorem mem_breakConflicts {b : BreakMsg}
    (h : b ∈ (breakConflicts key wk m).1) : ∃ g, Held m g ∧ b = g.break := by
  rw [breakConflicts_eq] at h
  obtain ⟨g, hg, rfl⟩ := List.mem_map.1 h
  exact ⟨g, ⟨key, heldAt_iff.2 (List.mem_of_mem_filter hg)⟩, rfl⟩

/-- The leases of a connection that is gone are not held. -/
theorem held_releaseConn {wid idx : ℕ} {gen : UInt16}
    (h : Held (releaseConn wid idx gen m) g) : Held m g ∧ ¬ heldBy wid idx gen g := by
  obtain ⟨key, v, hlook, hg⟩ := h
  obtain ⟨v', hlook', hv⟩ := FinMap.lookup_filterMap hlook
  dsimp only at hv
  split_ifs at hv
  obtain rfl := Option.some.inj hv
  obtain ⟨hmem, hnot⟩ := List.mem_filter.1 hg
  exact ⟨⟨key, v', hlook', hmem⟩, by simpa using hnot⟩

end LeaseTable

namespace Mailboxes

variable {mbs : Mailboxes}

theorem queued_post {b x : BreakMsg} (h : Queued (post mbs b) x) :
    Queued mbs x ∨ x = b := by
  obtain ⟨q, hq, hx⟩ := h
  obtain ⟨i, hi⟩ := List.mem_iff_getElem?.1 hq
  rw [post, List.getElem?_modify] at hi
  cases hm : mbs[i]? with
  | none => simp [hm] at hi
  | some q' =>
    rw [hm] at hi
    have hq' : q' ∈ mbs := List.mem_iff_getElem?.2 ⟨i, hm⟩
    by_cases hib : b.wid = i
    · obtain rfl : q' ++ [b] = q := by simpa [hib] using hi
      rcases List.mem_append.1 hx with hx | hx
      · exact Or.inl ⟨q', hq', hx⟩
      · exact Or.inr (List.mem_singleton.1 hx)
    · obtain rfl : q' = q := by simpa [hib] using hi
      exact Or.inl ⟨q', hq', hx⟩

theorem queued_foldl_post {breaks : List BreakMsg} {x : BreakMsg}
    (h : Queued (breaks.foldl post mbs) x) : Queued mbs x ∨ x ∈ breaks := by
  induction breaks generalizing mbs with
  | nil => exact Or.inl h
  | cons b breaks ih =>
    rcases ih h with h | h
    · rcases queued_post h with h | rfl
      · exact Or.inl h
      · exact Or.inr List.mem_cons_self
    · exact Or.inr (List.mem_cons_of_mem b h)

theorem queued_drain {wid : ℕ} {x : BreakMsg} (h : Queued (drain mbs wid).2 x) :
    Queued mbs x := by
  obtain ⟨q, hq, hx⟩ := h
  obtain ⟨i, hi⟩ := List.mem_iff_getElem?.1 hq
  simp only [drain, List.getElem?_modify] at hi
  cases hm : mbs[i]? with
  | none => simp [hm] at hi
  | some q' =>
    by_cases hib : wid = i
    · obtain rfl : [] = q := by simpa [hm, hib] using hi
      exact absurd hx List.not_mem_nil
    · obtain rfl : q' = q := by simpa [hm, hib] using hi
      exact ⟨q', List.mem_iff_getElem?.2 ⟨i, hm⟩, hx⟩

end Mailboxes

end RocketSmbd
