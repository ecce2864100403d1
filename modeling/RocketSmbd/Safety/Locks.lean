import RocketSmbd.Lib.RangeLocks
import RocketSmbd.Sample
import RocketSmbd.Smb2.Runs

/-!
# Byte-range locks

A LOCK request is a list of ranges to lock or unlock through one handle.  `OfdLocks` says what is
assumed of the operating system: its open-file-description locks are the tables of `RangeLocks`.

* `lockRange_faithful_iff`: what becomes of two SMB ranges when they are mapped to kernel ranges.
* `lock_atomic_iff`: when a LOCK that fails leaves the locks of its handle as they were.
-/

namespace RocketSmbd

open ByteString Vfs RangeLocks

variable {σ : Type}

/-! ### Kernel ranges -/

/-- The kernel range of an SMB range. -/
def kernelRange (off len : UInt64) : Range := ⟨(lockRange off len).1, (lockRange off len).2⟩

/-- The SMB range itself. -/
def smbRange (off len : UInt64) : Range := ⟨off.toNat, len.toNat⟩

/-- Two ranges have a byte in common. -/
def Meets (r r' : Range) : Prop := ∃ b, r.Has b ∧ r'.Has b

/-- The kernel range is what of the SMB range lies below the largest offset. -/
theorem kernelRange_has_iff (off len : UInt64) (b : ℕ) :
    (kernelRange off len).Has b ↔ (smbRange off len).Has b ∧ b < 2 ^ 63 - 1 := by
  simp only [Range.Has, kernelRange, smbRange, lockRange]
  omega

/-- Two intervals that meet, meet where the later one starts. -/
theorem meets_iff_max {r r' : Range} :
    Meets r r' ↔ r.Has (max r.start r'.start) ∧ r'.Has (max r.start r'.start) := by
  constructor
  · rintro ⟨b, ⟨h1, h2⟩, h3, h4⟩
    unfold Range.Has
    omega
  · exact fun h => ⟨_, h⟩

/-- **Kernel ranges.**  The arithmetic of `rangeLock` stays within 63 bits.  Two non-empty SMB
ranges both map to something, and to ranges that meet exactly if they do, if and only if both
start below the largest kernel offset. -/
theorem lockRange_faithful_iff (off₁ len₁ off₂ len₂ : UInt64) (hlen₁ : len₁ ≠ 0) (hlen₂ : len₂ ≠ 0)
    (hend₁ : off₁.toNat + len₁.toNat ≤ 2 ^ 64) (hend₂ : off₂.toNat + len₂.toNat ≤ 2 ^ 64) :
    (∀ off len : UInt64, (lockRange off len).1 ≤ 2 ^ 63 - 1 ∧
      (lockRange off len).1 + (lockRange off len).2 ≤ 2 ^ 63 - 1) ∧
    (((Meets (kernelRange off₁ len₁) (kernelRange off₂ len₂) ↔
        Meets (smbRange off₁ len₁) (smbRange off₂ len₂)) ∧
      (lockRange off₁ len₁).2 ≠ 0 ∧ (lockRange off₂ len₂).2 ≠ 0) ↔
      off₁.toNat < 2 ^ 63 - 1 ∧ off₂.toNat < 2 ^ 63 - 1) := by
  have hpos : ∀ {len : UInt64}, len ≠ 0 → 0 < len.toNat := by
    intro len hlen
    exact Nat.pos_of_ne_zero fun h => hlen (UInt64.toNat_inj.1 h)
  have h₁ := hpos hlen₁
  have h₂ := hpos hlen₂
  refine ⟨fun off len => ?_, ?_, ?_⟩
  · simp only [lockRange]
    omega
  · rintro ⟨-, hsome₁, hsome₂⟩
    simp only [lockRange] at hsome₁ hsome₂
    omega
  · rintro ⟨hlow₁, hlow₂⟩
    refine ⟨⟨?_, ?_⟩, ?_, ?_⟩
    · rintro ⟨b, hb₁, hb₂⟩
      exact ⟨b, ((kernelRange_has_iff ..).1 hb₁).1, ((kernelRange_has_iff ..).1 hb₂).1⟩
    · intro hmeets
      obtain ⟨hb₁, hb₂⟩ := meets_iff_max.1 hmeets
      have hlow : max (smbRange off₁ len₁).start (smbRange off₂ len₂).start < 2 ^ 63 - 1 :=
        max_lt hlow₁ hlow₂
      exact ⟨_, (kernelRange_has_iff ..).2 ⟨hb₁, hlow⟩, (kernelRange_has_iff ..).2 ⟨hb₂, hlow⟩⟩
    · simp only [lockRange]
      omega
    · simp only [lockRange]
      omega

/-- Two ranges of a file of 4 GiB. -/
theorem lockRange_faithful_low :
    (Meets (kernelRange 0 100) (kernelRange 4294967295 1) ↔
        Meets (smbRange 0 100) (smbRange 4294967295 1)) ∧
      (lockRange 0 100).2 ≠ 0 ∧ (lockRange 4294967295 1).2 ≠ 0 :=
  (lockRange_faithful_iff 0 100 4294967295 1 (by decide) (by decide) (by decide) (by decide)).2.2
    ⟨by decide, by decide⟩

/-- A range from `2 ^ 63 - 1` on is not locked at all, so two handles can both hold it. -/
theorem lockRange_high :
    Meets (smbRange 0x7FFFFFFFFFFFFFFF 1) (smbRange 0x7FFFFFFFFFFFFFFF 1) ∧
      ¬ Meets (kernelRange 0x7FFFFFFFFFFFFFFF 1) (kernelRange 0x7FFFFFFFFFFFFFFF 1) ∧
      (lockRange 0x7FFFFFFFFFFFFFFF 1).2 = 0 := by
  refine ⟨⟨2 ^ 63 - 1, by decide⟩, ?_, by decide⟩
  rintro ⟨b, hb, -⟩
  have hlow := (kernelRange_has_iff ..).1 hb
  simp only [Range.Has, smbRange] at hlow
  have hoff : (0x7FFFFFFFFFFFFFFF : UInt64).toNat = 2 ^ 63 - 1 := by decide
  omega

/-! ### What is assumed of the operating system -/

/-- What a lock operation makes of its range. -/
def LockKind.mode : LockKind → Mode
  | .shared => .shared
  | .exclusive => .exclusive
  | .unlock => .none

/-- Open-file-description locks: `table` is how the bytes are locked through each descriptor, and
`rival` says which descriptors are of the same file.  An operation that conflicts fails without
effect; any other sets its range. -/
structure OfdLocks (os : Os σ) where
  table : σ → Table Fd
  rival : σ → Fd → Fd → Prop
  granted : ∀ fd kind start len s,
    ¬ Conflict (rival s) (table s) fd ⟨start, len⟩ kind.mode →
      (os.ofdSetLock fd kind start len s).1 = .ok () ∧
        table (os.ofdSetLock fd kind start len s).2 =
          put (table s) fd ⟨start, len⟩ kind.mode ∧
        rival (os.ofdSetLock fd kind start len s).2 = rival s
  refused : ∀ fd kind start len s,
    Conflict (rival s) (table s) fd ⟨start, len⟩ kind.mode →
      (∃ e, (os.ofdSetLock fd kind start len s).1 = .error e) ∧
        table (os.ofdSetLock fd kind start len s).2 = table s ∧
        rival (os.ofdSetLock fd kind start len s).2 = rival s

section

variable {os : Os σ} (locks : OfdLocks os)

section

variable {fd : Fd} {off len : UInt64} {kind : LockKind} {s : σ}

theorem OfdLocks.rangeLock_granted
    (h : ¬ Conflict (locks.rival s) (locks.table s) fd (kernelRange off len)
      kind.mode) :
    (rangeLock os fd off len kind s).1 = .ok () ∧
      locks.table (rangeLock os fd off len kind s).2 =
        put (locks.table s) fd (kernelRange off len) kind.mode ∧
      locks.rival (rangeLock os fd off len kind s).2 = locks.rival s := by
  rw [rangeLock_eq]
  split_ifs with hzero
  · exact ⟨rfl, (put_empty _ fd hzero _).symm, rfl⟩
  · exact locks.granted fd kind _ _ s h

theorem OfdLocks.rangeLock_refused
    (h : Conflict (locks.rival s) (locks.table s) fd (kernelRange off len) kind.mode) :
    (∃ e, (rangeLock os fd off len kind s).1 = .error e) ∧
      locks.table (rangeLock os fd off len kind s).2 = locks.table s ∧
      locks.rival (rangeLock os fd off len kind s).2 = locks.rival s := by
  rw [rangeLock_eq]
  split_ifs with hzero
  · exact absurd h (not_conflict_empty _ _ fd hzero _)
  · exact locks.refused fd kind _ _ s h

end

end

/-! ### The loop over the elements -/

/-- The kernel range of a lock element and the mode it sets. -/
def LockElem.entry (e : LockElem) : Range × Mode :=
  (kernelRange e.off e.len, (e.kind.map LockKind.mode).getD .none)

/-- A lock element is carried out: its flags name an operation, and no other handle is in the
way. -/
def LockElem.Granted (rival : Fd → Fd → Prop) (t : Table Fd) (fd : Fd) (e : LockElem) : Prop :=
  ∃ kind, e.kind = some kind ∧
    ¬ Conflict rival t fd (kernelRange e.off e.len) kind.mode

/-- The state with another outside. -/
def Sx.withOs (s : Sx σ) (o : σ) : Sx σ := { s with host := { s.host with os := o } }

/-- The elements that take a lock, and what they are undone with. -/
def LockElem.taken (e : LockElem) : Option (UInt64 × UInt64) :=
  if e.kind = some .unlock then none else some (e.off, e.len)

/-- What a handle has set itself does not change what it is granted. -/
theorem LockElem.granted_put (rival : Fd → Fd → Prop) (t : Table Fd) (fd : Fd) (r : Range)
    (m : Mode) (e : LockElem) : e.Granted rival (put t fd r m) fd ↔ e.Granted rival t fd :=
  exists_congr fun _ => and_congr_right fun _ => not_congr (put_conflict_iff rival t fd r _ m _)

theorem fromErrno_ne_success (e : ℕ) : Status.fromErrno e ≠ Status.success := by
  have hite : ∀ {c : Prop} [Decidable c] {a b : UInt32}, a ≠ Status.success →
      b ≠ Status.success → (if c then a else b) ≠ Status.success := by
    intro c _ a b ha hb
    split_ifs
    · exact ha
    · exact hb
  unfold Status.fromErrno
  -- one step for each line of the table; `split_ifs` would carry all the lines before it along
  iterate 11 refine hite (by decide) ?_
  decide

section

variable {os : Os σ} (locks : OfdLocks os) (fd : Fd)

omit locks in
/-- One round of the loop, by the outcome of its operation. -/
theorem lockLoop_cons {e : LockElem} {kind : LockKind} (hkind : e.kind = some kind)
    (elems : List LockElem) (applied : List (UInt64 × UInt64)) (s : Sx σ) :
    lockLoop os fd (e :: elems) applied s =
      match (rangeLock os fd e.off e.len kind s.host.os).1 with
      | .ok _ => lockLoop os fd elems
          (if kind = .unlock then applied else (e.off, e.len) :: applied)
          (s.withOs (rangeLock os fd e.off e.len kind s.host.os).2)
      | .error err => (.ok (if err = Errno.eagain ∨ err = Errno.eacces then Status.lockNotGranted
          else Status.fromErrno err, applied),
          s.withOs (rangeLock os fd e.off e.len kind s.host.os).2) := by
  have hsys : (Handler.trySys (rangeLock os fd e.off e.len kind) : Handler σ (Except ℕ Unit)) s =
      (.ok (rangeLock os fd e.off e.len kind s.host.os).1,
        s.withOs (rangeLock os fd e.off e.len kind s.host.os).2) := rfl
  rw [lockLoop, hkind]
  dsimp only
  rw [Eff.bind_run_ok hsys]
  cases (rangeLock os fd e.off e.len kind s.host.os).1 with
  | ok u => rfl
  | error err => rfl

/-- **What the loop does.**  It carries out the elements of `pre`, and stops at the first element
of `post`, if there is one. -/
theorem lockLoop_spec (elems : List LockElem) (applied : List (UInt64 × UInt64)) (s : Sx σ) :
    ∃ pre post st o,
      elems = pre ++ post ∧
      (∀ e ∈ pre, e.Granted (locks.rival s.host.os) (locks.table s.host.os) fd) ∧
      (∀ e ∈ post.head?, ¬ e.Granted (locks.rival s.host.os) (locks.table s.host.os) fd) ∧
      (st = Status.success ↔ post = []) ∧
      lockLoop os fd elems applied s =
        (.ok (st, (pre.filterMap LockElem.taken).reverse ++ applied), s.withOs o) ∧
      locks.table o = puts (locks.table s.host.os) fd (pre.map LockElem.entry) := by
  induction elems generalizing applied s with
  | nil =>
    exact ⟨[], [], Status.success, s.host.os, rfl, by simp, by simp, by simp, rfl, rfl⟩
  | cons e elems ih =>
    cases hkind : e.kind with
    | none =>
      refine ⟨[], e :: elems, Status.invalidParameter, s.host.os, rfl, by simp, ?_,
        iff_of_false (by decide) (by simp), ?_, rfl⟩
      · intro e' he'
        obtain rfl := Option.some.inj he'
        rintro ⟨kind, hk, -⟩
        rw [hkind] at hk
        simp at hk
      · rw [lockLoop, hkind]
        rfl
    | some kind =>
      rw [lockLoop_cons fd hkind]
      by_cases hconf : Conflict (locks.rival s.host.os) (locks.table s.host.os) fd
          (kernelRange e.off e.len) kind.mode
      · obtain ⟨⟨err, herr⟩, htable, -⟩ := locks.rangeLock_refused hconf
        rw [herr]
        refine ⟨[], e :: elems, _, _, rfl, by simp, ?_, iff_of_false ?_ (by simp), rfl, htable⟩
        · intro e' he'
          obtain rfl := Option.some.inj he'
          rintro ⟨kind', hk, hfree⟩
          obtain rfl := Option.some.inj (hkind.symm.trans hk)
          exact hfree hconf
        · split_ifs
          · decide
          · exact fromErrno_ne_success err
      · obtain ⟨hok, htable, hrival⟩ := locks.rangeLock_granted hconf
        rw [hok]
        obtain ⟨pre, post, st, o, rfl, hpre, hpost, hst, hrun, hputs⟩ :=
          ih (if kind = .unlock then applied else (e.off, e.len) :: applied)
            (s.withOs (rangeLock os fd e.off e.len kind s.host.os).2)
        have hsame : ∀ x : LockElem, x.Granted
            (locks.rival (rangeLock os fd e.off e.len kind s.host.os).2)
            (locks.table (rangeLock os fd e.off e.len kind s.host.os).2) fd ↔
              x.Granted (locks.rival s.host.os) (locks.table s.host.os) fd := by
          intro x
          rw [htable, hrival]
          exact x.granted_put ..
        refine ⟨e :: pre, post, st, o, rfl, ?_, fun x hx => ?_, hst, ?_, ?_⟩
        · exact List.forall_mem_cons.2 ⟨⟨kind, hkind, hconf⟩, fun x hx => (hsame x).1 (hpre x hx)⟩
        · exact fun hgr => hpost x hx ((hsame x).2 hgr)
        · refine hrun.trans ?_
          have htaken : ((e :: pre).filterMap LockElem.taken).reverse ++ applied =
              (pre.filterMap LockElem.taken).reverse ++
                (if kind = .unlock then applied else (e.off, e.len) :: applied) := by
            by_cases hunlock : kind = .unlock
            · rw [if_pos hunlock, List.filterMap_cons, LockElem.taken, hkind, hunlock, if_pos rfl]
            · have hne : ¬ e.kind = some .unlock := by
                rw [hkind]
                exact fun h => hunlock (Option.some.inj h)
              rw [if_neg hunlock, List.filterMap_cons, LockElem.taken, if_neg hne]
              simp
          rw [htaken]
          rfl
        · have hentry : e.entry = (kernelRange e.off e.len, kind.mode) := by
            rw [LockElem.entry, hkind]
            rfl
          rw [List.map_cons, puts_cons, hentry, ← htable]
          exact hputs

theorem unlockAll_spec (undo : List (UInt64 × UInt64)) (s : Sx σ) :
    ∃ o, unlockAll os fd undo s = (.ok (), s.withOs o) ∧
      locks.table o = puts (locks.table s.host.os) fd
        (unlocks (undo.map fun r => kernelRange r.1 r.2)) := by
  induction undo generalizing s with
  | nil => exact ⟨s.host.os, rfl, rfl⟩
  | cons r undo ih =>
    have hfree : ¬ Conflict (locks.rival s.host.os) (locks.table s.host.os) fd
        (kernelRange r.1 r.2) (LockKind.mode .unlock) := not_conflict_none _ _ fd _
    obtain ⟨-, htable, -⟩ := locks.rangeLock_granted hfree
    obtain ⟨o, hrun, hputs⟩ := ih (s.withOs (rangeLock os fd r.1 r.2 .unlock s.host.os).2)
    refine ⟨o, hrun, ?_⟩
    rw [hputs]
    change puts (locks.table (rangeLock os fd r.1 r.2 .unlock s.host.os).2) fd _ = _
    rw [htable]
    rfl

end

/-! ### Failed requests -/

/-- There is one first element that is refused. -/
theorem first_refused_unique {p : LockElem → Prop} {pre pre' post post' : List LockElem}
    {e e' : LockElem} (heq : pre ++ e :: post = pre' ++ e' :: post') (hpre : ∀ x ∈ pre, p x)
    (he : ¬ p e) (hpre' : ∀ x ∈ pre', p x) (he' : ¬ p e') : pre = pre' := by
  induction pre generalizing pre' with
  | nil =>
    cases pre' with
    | nil => rfl
    | cons x pre' =>
      obtain ⟨rfl, -⟩ := List.cons.inj heq
      exact absurd (hpre' e List.mem_cons_self) he
  | cons x pre ih =>
    cases pre' with
    | nil =>
      obtain ⟨rfl, -⟩ := List.cons.inj heq
      exact absurd (hpre x List.mem_cons_self) he'
    | cons y pre' =>
      obtain ⟨rfl, hrest⟩ := List.cons.inj heq
      rw [ih hrest (fun z hz => hpre z (List.mem_cons_of_mem _ hz))
        fun z hz => hpre' z (List.mem_cons_of_mem _ hz)]

/-- The handle has nothing locked in the ranges that the request gets to before it is refused. -/
def Undoable (rival : Fd → Fd → Prop) (t : Table Fd) (fd : Fd) (elems : List LockElem) : Prop :=
  ∀ pre e post, elems = pre ++ e :: post → (∀ x ∈ pre, x.Granted rival t fd) →
    ¬ e.Granted rival t fd → ∀ x ∈ pre, ∀ b, (kernelRange x.off x.len).Has b → t fd b = .none

section

variable (srv : Srv σ) (locks : OfdLocks srv.env.os)

omit locks in
/-- A LOCK that gets to its loop. -/
theorem lock_run {body : Bytes} {s : Sx σ} {fid : UInt64} {elems : List LockElem} {of : OpenFile}
    (hparse : Rdr.parse (lockFields s.chain) body = some (fid, elems))
    (hof : s.sess.handles.get fid s.chain.treeId = some of) (hdir : of.isDir = false)
    {st : UInt32} {applied : List (UInt64 × UInt64)} {s' : Sx σ}
    (hloop : lockLoop srv.env.os of.fd elems [] s = (.ok (st, applied), s')) :
    lock srv body s = if st ≠ Status.success then
        (do unlockAll srv.env.os of.fd applied; Eff.fail st : Handler σ Body) s'
      else (.ok (Status.success, p16 4 ++ p16 0), s') := by
  have hfile : ¬ of.isDir = true := by simp [hdir]
  unfold lock
  rw [Eff.bind_run_ok (Eff.read_run s), Eff.bind_run_ok (need_run hparse s)]
  dsimp only
  rw [Eff.bind_run_ok (getHandle_run hof), Eff.bind_run_ok (refuse_run hfile s),
    Eff.bind_run_ok hloop]
  dsimp only
  split_ifs <;> rfl

omit locks in
/-- A LOCK that does not get to its loop does nothing. -/
theorem lock_early {body : Bytes} {s : Sx σ}
    (h : ∀ fid elems of, Rdr.parse (lockFields s.chain) body = some (fid, elems) →
      s.sess.handles.get fid s.chain.treeId = some of → of.isDir = true) :
    (lock srv body s).2 = s := by
  unfold lock
  rw [Eff.bind_run_ok (Eff.read_run s)]
  cases hparse : Rdr.parse (lockFields s.chain) body with
  | none => rfl
  | some r =>
    obtain ⟨fid, elems⟩ := r
    cases hof : s.sess.handles.get fid s.chain.treeId with
    | none =>
      have hget : (Handler.getHandle fid : Handler σ OpenFile) s =
          (.error Status.fileClosed, s) := by
        rw [Handler.getHandle, Eff.bind_run_ok (Eff.read_run s), hof]
        rfl
      rw [Eff.bind_run_ok (need_run rfl s)]
      dsimp only
      rw [Eff.bind_run_error hget]
    | some of =>
      rw [Eff.bind_run_ok (need_run rfl s)]
      dsimp only
      rw [Eff.bind_run_ok (getHandle_run hof),
        Eff.bind_run_error (refuse_run_error (h fid elems of hparse hof) s)]

omit srv locks in
/-- The ranges that are unlocked are those of the elements that took a lock. -/
theorem mem_undo {pre : List LockElem} (hkind : ∀ e ∈ pre, e.kind ≠ none) (r : Range) :
    r ∈ ((pre.filterMap LockElem.taken).reverse.map fun r => kernelRange r.1 r.2) ↔
      ∃ m, m ≠ Mode.none ∧ (r, m) ∈ pre.map LockElem.entry := by
  have hmode : ∀ e ∈ pre, e.entry.2 = .none ↔ e.kind = some .unlock := by
    intro e he
    unfold LockElem.entry
    cases hk : e.kind with
    | none => exact absurd hk (hkind e he)
    | some kind => cases kind <;> simp [LockKind.mode]
  simp only [List.mem_map, List.mem_reverse, List.mem_filterMap]
  constructor
  · rintro ⟨x, ⟨e, he, htaken⟩, rfl⟩
    unfold LockElem.taken at htaken
    split_ifs at htaken with hunlock
    obtain rfl := Option.some.inj htaken
    exact ⟨e.entry.2, fun h => hunlock ((hmode e he).1 h), e, he, rfl⟩
  · rintro ⟨m, hm, e, he, heq⟩
    have hunlock : ¬ e.kind = some .unlock := by
      rw [← hmode e he, heq]
      exact hm
    refine ⟨(e.off, e.len), ⟨e, he, if_neg hunlock⟩, ?_⟩
    exact congrArg Prod.fst heq

/-- **A LOCK that fails leaves the locks as they were, if and only if** its handle held nothing in
the ranges that were set before the failure. -/
theorem lock_atomic_iff (body : Bytes) (s : Sx σ) :
    (∀ st, (lock srv body s).1 = .error st →
      locks.table (lock srv body s).2.host.os = locks.table s.host.os) ↔
    ∀ fid elems of, Rdr.parse (lockFields s.chain) body = some (fid, elems) →
      s.sess.handles.get fid s.chain.treeId = some of → of.isDir = false →
        Undoable (locks.rival s.host.os) (locks.table s.host.os) of.fd elems := by
  by_cases hearly : ∀ fid elems of, Rdr.parse (lockFields s.chain) body = some (fid, elems) →
      s.sess.handles.get fid s.chain.treeId = some of → of.isDir = true
  · refine iff_of_true (fun st _ => ?_) fun fid elems of hparse hof hdir => ?_
    · rw [lock_early srv hearly]
    · rw [hearly fid elems of hparse hof] at hdir
      simp at hdir
  push Not at hearly
  obtain ⟨fid, elems, of, hparse, hof, hdir⟩ := hearly
  have hdir : of.isDir = false := by simpa using hdir
  obtain ⟨pre, post, st, o, helems, hpre, hpost, hst, hloop, hputs⟩ :=
    lockLoop_spec locks of.fd elems [] s
  have hrun := lock_run srv hparse hof hdir hloop
  have honly : (∀ fid elems of, Rdr.parse (lockFields s.chain) body = some (fid, elems) →
      s.sess.handles.get fid s.chain.treeId = some of → of.isDir = false →
        Undoable (locks.rival s.host.os) (locks.table s.host.os) of.fd elems) ↔
      Undoable (locks.rival s.host.os) (locks.table s.host.os) of.fd elems := by
    refine ⟨fun h => h fid elems of hparse hof hdir, fun h fid' elems' of' hparse' hof' _ => ?_⟩
    rw [hparse] at hparse'
    obtain ⟨rfl, rfl⟩ := Prod.mk.inj (Option.some.inj hparse')
    rw [hof] at hof'
    obtain rfl := Option.some.inj hof'
    exact h
  rw [honly, hrun]
  cases post with
  | nil =>
    -- Every element was carried out: the request succeeds, and none of them is refused.
    rw [if_neg (not_not.2 (hst.2 rfl))]
    refine iff_of_true (by simp) fun pre' e post' heq _ hne => ?_
    rw [List.append_nil] at helems
    exact absurd (hpre e (by rw [← helems, heq]; simp)) hne
  | cons e post =>
    have hfail : st ≠ Status.success := fun h => by simpa using hst.1 h
    obtain ⟨o', hundo, hputs'⟩ := unlockAll_spec locks of.fd
      ((pre.filterMap LockElem.taken).reverse ++ []) (s.withOs o)
    rw [if_pos hfail, Eff.bind_run_ok hundo]
    have htable : locks.table o' = puts (puts (locks.table s.host.os) of.fd
        (pre.map LockElem.entry)) of.fd (unlocks ((pre.filterMap LockElem.taken).reverse.map
          fun r => kernelRange r.1 r.2)) := by
      rw [hputs', List.append_nil]
      change puts (locks.table o) of.fd _ = _
      rw [hputs]
    have hkind : ∀ e ∈ pre, e.kind ≠ none := by
      intro e he hnone
      obtain ⟨kind, hk, -⟩ := hpre e he
      rw [hnone] at hk
      simp at hk
    have hiff := undone_iff (locks.table s.host.os) of.fd (pre.map LockElem.entry) _
      (mem_undo hkind)
    rw [← htable] at hiff
    have hleft : (∀ st', (Except.error st : Except UInt32 Body) = .error st' →
        locks.table o' = locks.table s.host.os) ↔ locks.table o' = locks.table s.host.os :=
      ⟨fun h => h st rfl, fun h _ _ => h⟩
    refine hleft.trans (hiff.trans ?_)
    constructor
    · intro h pre' e' post' heq hgr hne x hx b hb
      obtain rfl := first_refused_unique (helems.symm.trans heq) hpre (hpost e rfl) hgr hne
      exact h x.entry (List.mem_map.2 ⟨x, hx, rfl⟩) b hb
    · intro h x hx b hb
      obtain ⟨y, hy, rfl⟩ := List.mem_map.1 hx
      exact h pre e post helems hpre (hpost e rfl) y hy b hb

end

/-! ### A request that loses a lock -/

namespace Sample

/-- A system that has nothing but locks; its descriptors 0 and 1 are of one file. -/
def lockOs : Os (Table Fd) where
  urandom _ t := ([], t)
  now t := ((0, 0), t)
  stat _ := Eff.fail Errno.eio
  fstat _ := Eff.fail Errno.eio
  openFile _ _ _ := Eff.fail Errno.eio
  clearNonblock _ := Eff.fail Errno.eio
  close _ t := t
  dup _ := Eff.fail Errno.eio
  fadviseSequential _ t := t
  mkdir _ _ := Eff.fail Errno.eio
  pread _ _ _ := Eff.fail Errno.eio
  pwrite _ _ _ := Eff.fail Errno.eio
  ftruncate _ _ := Eff.fail Errno.eio
  fsync _ := Eff.fail Errno.eio
  futimens _ _ _ := Eff.fail Errno.eio
  rename _ _ := Eff.fail Errno.eio
  renameNoreplace _ _ := Eff.fail Errno.eio
  removeFile _ := Eff.fail Errno.eio
  removeDir _ := Eff.fail Errno.eio
  readDir _ := Eff.fail Errno.eio
  fstatvfs _ := Eff.fail Errno.eio
  ofdSetLock fd kind start len t :=
    if ∃ fd' < 2, fd' ≠ fd ∧ ∃ i < len, kind.mode.excludes (t fd' (start + i)) then
      (.error Errno.eagain, t)
    else (.ok (), put t fd ⟨start, len⟩ kind.mode)
  inotifyInit := Eff.fail Errno.eio
  inotifyAddWatch _ _ := Eff.fail Errno.eio
  inotifyRmWatch _ _ t := t

theorem conflict_iff (t : Table Fd) (fd : Fd) (start len : ℕ) (m : Mode) :
    Conflict (fun _ fd' => fd' < 2) t fd ⟨start, len⟩ m ↔
      ∃ fd' < 2, fd' ≠ fd ∧ ∃ i < len, m.excludes (t fd' (start + i)) := by
  constructor
  · rintro ⟨fd', hne, hlt, b, ⟨hle, hb⟩, hex⟩
    obtain ⟨i, rfl⟩ := Nat.exists_eq_add_of_le hle
    exact ⟨fd', hlt, hne, i, by simpa using hb, hex⟩
  · rintro ⟨fd', hlt, hne, i, hi, hex⟩
    exact ⟨fd', hne, hlt, start + i, ⟨Nat.le_add_right _ _, Nat.add_lt_add_left hi _⟩, hex⟩

def lockOsLocks : OfdLocks lockOs where
  table t := t
  rival _ _ fd' := fd' < 2
  granted _ _ _ _ _ h := by
    dsimp only [lockOs]
    rw [if_neg (mt (conflict_iff ..).2 h)]
    exact ⟨rfl, rfl, rfl⟩
  refused _ _ _ _ _ h := by
    dsimp only [lockOs]
    rw [if_pos ((conflict_iff ..).1 h)]
    exact ⟨⟨_, rfl⟩, rfl, rfl⟩

/-- A server on that system. -/
def lockSrv : Srv (Table Fd) :=
  { cfg := cfg false false, guid := zeros 16, maxRead := 65536, startFt := 0, users := ∅
    allowGuest := true, interfaces := []
    env := { crypto, os := lockOs
             gss := { acceptor := fun _ t => (.ok 1, t)
                      step := fun _ _ _ t => ((.failed [], 0), t) }
             toLowercase := id, toUppercase := id, fromUtf8Lossy := fun _ => [], ntlm := true
             kerberos := true } }

/-- A handle with an exclusive lock on its first ten bytes. -/
def lockState : Sx (Table Fd) :=
  let of : OpenFile :=
    { fd := 0, path := [], rel := [], leaf := [], shareIdx := 0, treeId := 1, isDir := false
      writable := true, deleteOnClose := false, dir := none, oplockIno := none, leaseKey := none
      leaseGranted := 0, serial := 0 }
  { sess := { handles := (HandleTable.insert Slab.empty of).2 }
    host := { leases := ∅, mailboxes := [], os := put (fun _ _ => .none) 0 ⟨0, 10⟩ .exclusive
              opened := 1, finished := [] }
    chain := { treeId := 1, transformSid := none }
    notify := {} }

/-- LOCK: the ranges, each with its flags. -/
def lockBody (fid : UInt64) (elems : List LockElem) : Bytes :=
  p16 48 ++ p16 (UInt16.ofNat elems.length) ++ p32 0 ++ putFid fid ++
    elems.flatMap fun e => p64 e.off ++ p64 e.len ++ p32 e.flags ++ p32 0

/-- The other descriptor of the file has an exclusive lock on ten bytes from offset 20. -/
def rivalState : Sx (Table Fd) := lockState.withOs (put (fun _ _ => .none) 1 ⟨20, 10⟩ .exclusive)

/-- Exclusive locks on ten bytes from 0, and on five of those that the other descriptor has. -/
def rivalBody : Bytes :=
  lockBody firstFid [⟨0, 10, lockflagExclusive⟩, ⟨22, 5, lockflagExclusive⟩]

end Sample

open Sample in
/-- The second lock of the request is refused, and the first is released. -/
theorem lock_atomic_iff_rival :
    (lock lockSrv rivalBody rivalState).1 = .error Status.lockNotGranted ∧
      lockOsLocks.table (lock lockSrv rivalBody rivalState).2.host.os =
        lockOsLocks.table rivalState.host.os := by
  have hfail : (lock lockSrv rivalBody rivalState).1 = .error Status.lockNotGranted := by
    decide +kernel
  refine ⟨hfail, (lock_atomic_iff lockSrv lockOsLocks rivalBody rivalState).2 ?_ _ hfail⟩
  intro fid elems of hparse hof _ pre e post _ _ _ x _ b _
  have hfid : (Rdr.parse (lockFields rivalState.chain) rivalBody).map Prod.fst = some firstFid := by
    decide +kernel
  rw [hparse] at hfid
  obtain rfl := Option.some.inj hfid
  have hfd : (rivalState.sess.handles.get firstFid rivalState.chain.treeId).map OpenFile.fd =
      some 0 := by decide +kernel
  rw [hof] at hfd
  rw [Option.some.inj hfd]
  -- the descriptor of the handle has no locks
  exact congrFun (put_of_ne (fun _ _ => .none) Nat.zero_ne_one ⟨20, 10⟩ .exclusive) b

open Sample in
/-- An unlock that is followed by an element without flags: the request fails, and the lock is
gone. -/
theorem lock_loses_lock :
    lockOsLocks.table lockState.host.os 0 5 = .exclusive ∧
    (lock lockSrv (lockBody firstFid [⟨0, 10, lockflagUnlock⟩, ⟨20, 1, 0⟩]) lockState).1 =
      .error Status.invalidParameter ∧
    lockOsLocks.table (lock lockSrv (lockBody firstFid [⟨0, 10, lockflagUnlock⟩, ⟨20, 1, 0⟩])
      lockState).2.host.os 0 5 = .none := by
  decide +kernel

end RocketSmbd
