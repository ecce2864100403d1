import RocketSmbd.Lib.Slab
import RocketSmbd.Os

/-!
# Filesystem layer (`vfs.rs`)

Path resolution, metadata mapping, the opening of a path for a client, byte-range locks,
directory snapshots, and the table of open handles of a session.
-/

namespace RocketSmbd

open ByteString

namespace Vfs

def attrReadonly : UInt32 := 0x01
def attrHidden : UInt32 := 0x02
def attrDirectory : UInt32 := 0x10
def attrArchive : UInt32 := 0x20

def epochDeltaSecs : ℤ := 11644473600

/-- Unix time → Windows FILETIME (100ns ticks since 1601-01-01). -/
def filetime (secs nsec : ℤ) : UInt64 :=
  if secs < -epochDeltaSecs then 0
  else UInt64.ofNat (secs + epochDeltaSecs).toNat * 10000000 + UInt64.ofNat nsec.toNat / 100

structure Meta where
  size : UInt64
  alloc : UInt64
  attrs : UInt32
  crtime : UInt64
  atime : UInt64
  mtime : UInt64
  ctime : UInt64
  ino : UInt64
  nlink : UInt32
  isDir : Bool
  deriving DecidableEq

/-- There is no portable birth time: `mtime` stands in for creation. -/
def metaFromStd (m : Stat) : Meta :=
  let isDir := m.kind = .directory
  let attrs := (if isDir then attrDirectory else 0) ||| (if m.ownerWrite then 0 else attrReadonly)
  let mtime := filetime m.mtime.1 m.mtime.2
  { size := m.size
    alloc := m.blocks * 512
    attrs := if attrs = 0 then attrArchive else attrs
    crtime := mtime
    atime := filetime m.atime.1 m.atime.2
    mtime
    ctime := filetime m.ctime.1 m.ctime.2
    ino := m.ino
    nlink := m.nlink.toUInt32
    isDir }

/-- Dotfiles get the DOS hidden attribute. -/
def finalizeAttrs (attrs : UInt32) (leaf : Str) : UInt32 :=
  if leaf.head? = some '.' ∧ leaf ≠ ['.'] ∧ leaf ≠ ['.', '.'] then attrs ||| attrHidden else attrs

/-- The components of a share-relative SMB name, without the empty and the `.` ones; `none` if
one is `..` or holds a NUL. -/
def components : List Str → Option (List Str)
  | [] => some []
  | c :: cs =>
    if c = [] ∨ c = ['.'] then components cs
    else if c = ['.', '.'] then none
    else if c.any (· = Char.ofNat 0) then none
    else (components cs).map (c :: ·)

/-- Components joined with backslashes. -/
def joinRel : List Str → Str
  | [] => []
  | [c] => c
  | c :: cs => c ++ '\\' :: joinRel cs

/-- Resolve a share-relative SMB name to a host path and the normalized relative name. -/
def resolve (root : Path) (smbName : Str) : Except UInt32 (Path × Str) :=
  match components (splitOn (fun c => c = '\\' ∨ c = '/') smbName) with
  | none => .error Status.objectNameInvalid
  | some cs => .ok (root ++ cs, joinRel cs)

/-- `s.rsplit('\\').next()`: what follows the last backslash. -/
def leafOf (rel : Str) : Str := ((splitOn (· = '\\') rel).getLast?).getD []

/-- A path can be passed to the kernel: it holds no NUL. -/
def cpathOk (p : Path) : Bool := p.all fun c => c.all (· ≠ Char.ofNat 0)

/-- Sectors of an open file system, as FileFsFullSizeInformation reports them. -/
structure FsSizes where
  total : UInt64
  avail : UInt64
  free : UInt64
  sectorsPerUnit : UInt32
  bytesPerSector : UInt32

structure DirEnt where
  name : Str
  info : Meta

structure DirState where
  entries : List DirEnt
  pos : ℕ
  pattern : Str

/-- An open handle of a session.  `serial` numbers the opens of a run; it is bookkeeping for the
statements about runs and no function reads it. -/
structure OpenFile where
  fd : Fd
  path : Path
  /-- Share-relative name with backslash separators (empty for the share root). -/
  rel : Str
  leaf : Str
  shareIdx : UInt32
  treeId : UInt32
  isDir : Bool
  writable : Bool
  deleteOnClose : Bool
  dir : Option DirState
  oplockIno : Option UInt64
  leaseKey : Option Bytes
  leaseGranted : UInt32
  serial : ℕ

/-! ### System calls -/

section Calls

variable {σ : Type} (os : Os σ)

def filetimeNow : σ → UInt64 × σ := fun s =>
  let (t, s) := os.now s
  (filetime t.1 t.2, s)

def statMeta (p : Path) : Eff σ ℕ Meta := do
  let m ← os.stat p
  pure (metaFromStd m)

def fstatMeta (fd : Fd) : Eff σ ℕ Meta := do
  let m ← os.fstat fd
  pure (metaFromStd m)

/-- The checks on a freshly opened descriptor: a regular file or directory, made blocking. -/
def openedOk (fd : Fd) : Eff σ ℕ Unit := do
  let st ← os.fstat fd
  Eff.refuse (st.kind = .other) Errno.enxio
  os.clearNonblock fd

/-- Open a path for a client: only regular files and directories. -/
def openRaw (p : Path) (flags : OpenFlags) (mode : ℕ) : Eff σ ℕ Fd := do
  Eff.refuse (¬ cpathOk p) Errno.einval
  let fd ← os.openFile p flags mode
  match ← Eff.attempt (openedOk os fd) with
  | .ok _ => pure fd
  | .error e =>
    Eff.update (os.close fd)
    Eff.fail e

def mkdir (p : Path) (mode : ℕ) : Eff σ ℕ Unit := do
  Eff.refuse (¬ cpathOk p) Errno.einval
  os.mkdir p mode

/-- Rename that fails with `EEXIST` instead of replacing an existing target. -/
def renameNoreplace (a b : Path) : Eff σ ℕ Unit := do
  Eff.refuse (¬ cpathOk a ∨ ¬ cpathOk b) Errno.einval
  os.renameNoreplace a b

/-- Write all of `buf`, of at most `fuel` bytes: a `pwrite` that succeeds on a non-empty buffer
stores at least one byte. -/
def pwriteLoop (fd : Fd) : ℕ → Bytes → UInt64 → Eff σ ℕ Unit
  | 0, _, _ => pure ()
  | fuel + 1, buf, off =>
    if buf.isEmpty then pure ()
    else do
      let n ← os.pwrite fd buf off
      let n := max n 1
      pwriteLoop fd fuel (buf.drop n) (off + UInt64.ofNat n)

def pwriteAll (fd : Fd) (buf : Bytes) (off : UInt64) : Eff σ ℕ Unit :=
  pwriteLoop os fd buf.length buf off

/-- Byte-range lock via open-file-description locks; a zero-length range locks nothing. -/
def rangeLock (fd : Fd) (off len : UInt64) (kind : LockKind) : Eff σ ℕ Unit :=
  let start := min off.toNat (2 ^ 63 - 1)
  let lLen := min len.toNat (2 ^ 63 - 1 - start)
  if lLen = 0 then pure () else os.ofdSetLock fd kind start lLen

/-- `l_start` and `l_len` of the kernel lock for an SMB range. -/
def lockRange (off len : UInt64) : ℕ × ℕ :=
  (min off.toNat (2 ^ 63 - 1), min len.toNat (2 ^ 63 - 1 - min off.toNat (2 ^ 63 - 1)))

theorem rangeLock_eq (fd : Fd) (off len : UInt64) (kind : LockKind) :
    rangeLock os fd off len kind = if (lockRange off len).2 = 0 then pure ()
      else os.ofdSetLock fd kind (lockRange off len).1 (lockRange off len).2 := rfl

def fsSizes (fd : Fd) : Eff σ ℕ FsSizes := do
  let s ← os.fstatvfs fd
  let frsize := if 0 < s.frsize then s.frsize else 512
  let spu := max (frsize.toNat / 512) 1
  pure ⟨s.blocks, s.bavail, s.bfree, UInt32.ofNat spu, 512⟩

/-- An entry of a listing: entries without a UTF-8 name or metadata are left out. -/
def dirEnt (item : DirItem) : Option DirEnt :=
  match item.name, item.stat with
  | some name, some st =>
    let m := metaFromStd st
    some ⟨name, { m with attrs := finalizeAttrs m.attrs name }⟩
  | _, _ => none

/-- Read the full directory listing as a snapshot, including `.` and `..`. -/
def dirSnapshot (toLowercase : Str → Str) (of : OpenFile) (pattern : Str) :
    Eff σ ℕ (List DirEnt) := do
  let self ← fstatMeta os of.fd
  let items ← os.readDir of.path
  let out := ⟨['.'], self⟩ :: ⟨['.', '.'], self⟩ :: items.filterMap dirEnt
  if pattern = [] ∨ pattern = ['*'] then pure out
  else pure (out.filter fun e => toLowercase e.name = toLowercase pattern)

end Calls

/-! ### The handle table -/

/-- Slab of open files.  Ids are `(generation << 32) | index`. -/
abbrev HandleTable := Slab OpenFile

namespace HandleTable

variable {f : OpenFile → OpenFile} {id : UInt64} {idx : ℕ} {of : OpenFile} {t t' : HandleTable}
  {tree treeId : UInt32}

def mkId (gen : UInt32) (idx : ℕ) : UInt64 := (gen.toUInt64 <<< 32) ||| UInt64.ofNat idx

/-- `wrapping_add(1).max(1)` -/
def bump (gen : UInt32) : UInt32 := if gen + 1 = 0 then 1 else gen + 1

def insert (t : HandleTable) (of : OpenFile) : UInt64 × HandleTable :=
  let (idx, t) := Slab.insert t of
  (mkId (t.gens.getD idx 0) idx, t)

/-- The slot of a live id. -/
def slot (t : HandleTable) (id : UInt64) : Option ℕ :=
  let idx := (id &&& 0xFFFFFFFF).toNat
  let gen := (id >>> 32).toUInt32
  if t.gens[idx]? = some gen ∧ (t.at? idx).isSome then some idx else none

/-- The open handle `id` and its slot, if it is live and was opened on `treeId`. -/
def find (t : HandleTable) (id : UInt64) (treeId : UInt32) : Option (ℕ × OpenFile) :=
  (t.slot id).bind fun idx =>
    ((t.at? idx).filter fun of => of.treeId = treeId).map fun of => (idx, of)

/-- The open handle `id`, if it is live and was opened on `treeId`. -/
def get (t : HandleTable) (id : UInt64) (treeId : UInt32) : Option OpenFile :=
  (t.find id treeId).map Prod.snd

/-- Change the handle that `get` gives, in place. -/
def modify (t : HandleTable) (id : UInt64) (treeId : UInt32) (f : OpenFile → OpenFile) :
    HandleTable :=
  match t.find id treeId with
  | none => t
  | some (idx, _) => t.modifyAt idx f

/-- Remove and return handle `id`, if it is live and was opened on `treeId`. -/
def remove (t : HandleTable) (id : UInt64) (treeId : UInt32) : Option (OpenFile × HandleTable) :=
  (t.find id treeId).map fun ⟨idx, of⟩ => (of, t.vacate bump idx)

/-- Number of open handles. -/
def len (t : HandleTable) : ℕ := t.slots.length - t.free.length

/-- The ids of every handle opened on `treeId`. -/
def idsInTree (t : HandleTable) (treeId : UInt32) : List UInt64 :=
  ((List.range t.slots.length).filter fun i => (t.at? i).any fun of => of.treeId = treeId).map
    fun i => mkId (t.gens.getD i 0) i

/-- Remove every handle (session teardown). -/
def takeAll (t : HandleTable) : List OpenFile × HandleTable :=
  (t.live, (List.range t.slots.length).foldl (Slab.vacate bump) t)

theorem find_eq_some
    (h : t.find id treeId = some (idx, of)) : t.at? idx = some of ∧ of.treeId = treeId := by
  simp only [find, Option.bind_eq_some_iff, Option.map_eq_some_iff, Option.filter_eq_some_iff,
    decide_eq_true_eq, Prod.mk.injEq] at h
  obtain ⟨i, -, f, ⟨hf, htree⟩, rfl, rfl⟩ := h
  exact ⟨hf, htree⟩

theorem get_mem_live (h : t.get id treeId = some of) : of ∈ t.live ∧ of.treeId = treeId := by
  obtain ⟨⟨idx, f⟩, hfind, rfl⟩ := Option.map_eq_some_iff.1 h
  obtain ⟨hat, htree⟩ := find_eq_some hfind
  exact ⟨Slab.mem_live.2 ⟨idx, hat⟩, htree⟩

/-- A removed handle was live, and leaves the others. -/
theorem live_remove (h : t.remove id treeId = some (of, t')) :
    (of :: t'.live).Perm t.live ∧ of.treeId = treeId := by
  obtain ⟨⟨idx, f⟩, hfind, heq⟩ := Option.map_eq_some_iff.1 h
  obtain ⟨hat, htree⟩ := find_eq_some hfind
  obtain ⟨rfl, rfl⟩ := Prod.mk.injEq .. ▸ heq
  exact ⟨Slab.live_vacate bump hat, htree⟩

theorem live_insert (t : HandleTable) (of : OpenFile) :
    (t.insert of).2.live.Perm (of :: t.live) := Slab.live_insert t of

/-- A change that keeps a part of every handle keeps that part of the table. -/
theorem map_live_modify {β : Type} (g : OpenFile → β) (t : HandleTable) (id : UInt64)
    (treeId : UInt32) (h : ∀ of, g (f of) = g of) :
    (t.modify id treeId f).live.map g = t.live.map g := by
  unfold modify
  split
  · rfl
  · exact Slab.map_live_modifyAt g t _ f fun of _ => h of

theorem mem_live_modify (h : of ∈ (t.modify id treeId f).live) :
    of ∈ t.live ∨ ∃ of' ∈ t.live, of'.treeId = treeId ∧ of = f of' := by
  unfold modify at h
  split at h
  · exact Or.inl h
  · next idx g hfind =>
    obtain ⟨hat, htree⟩ := find_eq_some hfind
    rcases Slab.mem_live_modifyAt h with h | ⟨of', hat', rfl⟩
    · exact Or.inl h
    · obtain rfl : g = of' := Option.some.inj (hat.symm.trans hat')
      exact Or.inr ⟨g, Slab.mem_live.2 ⟨idx, hat⟩, htree, rfl⟩

theorem mkId_toNat (gen : UInt32) (h : idx < 2 ^ 32) :
    (mkId gen idx).toNat = gen.toNat * 2 ^ 32 + idx := by
  have hgen := gen.toNat_lt
  have hshift : gen.toNat * 2 ^ 32 < 2 ^ 64 := by omega
  have hbits : UInt64.toNat 32 % 64 = 32 := rfl
  unfold mkId
  rw [UInt64.toNat_or, UInt64.toNat_shiftLeft, UInt32.toNat_toUInt64, UInt64.toNat_ofNat',
    Nat.mod_eq_of_lt (by omega : idx < 2 ^ 64), hbits, Nat.shiftLeft_eq, Nat.mod_eq_of_lt hshift,
    Nat.mul_comm, Nat.two_pow_add_eq_or_of_lt h]

/-- The slot and the generation of an id. -/
theorem parts_toNat (id : UInt64) :
    (id &&& 0xFFFFFFFF).toNat = id.toNat % 2 ^ 32 ∧
      (id >>> 32).toUInt32.toNat = id.toNat / 2 ^ 32 := by
  have hmask : ((0xFFFFFFFF : UInt64)).toNat = 2 ^ 32 - 1 := rfl
  have hbits : UInt64.toNat 32 % 64 = 32 := rfl
  have hid := id.toNat_lt
  rw [UInt64.toNat_and, hmask, Nat.and_two_pow_sub_one_eq_mod, UInt64.toNat_toUInt32,
    UInt64.toNat_shiftRight, hbits, Nat.shiftRight_eq_div_pow]
  omega

/-- An id gives back the slot and the generation it was made from. -/
theorem mkId_parts (gen : UInt32) (h : idx < 2 ^ 32) :
    (mkId gen idx &&& 0xFFFFFFFF).toNat = idx ∧ (mkId gen idx >>> 32).toUInt32 = gen := by
  obtain ⟨hidx, hgen⟩ := parts_toNat (mkId gen idx)
  rw [mkId_toNat gen h] at hidx hgen
  refine ⟨?_, UInt32.toNat_inj.1 ?_⟩
  · omega
  · omega

/-- Every id is made of its own slot and generation. -/
theorem mkId_self (id : UInt64) : mkId (id >>> 32).toUInt32 (id &&& 0xFFFFFFFF).toNat = id := by
  obtain ⟨hidx, hgen⟩ := parts_toNat id
  apply UInt64.toNat_inj.1
  rw [mkId_toNat _ (by omega), hidx, hgen]
  omega

/-- The handle that an id means: the generation is that of its slot. -/
theorem get_eq_some :
    t.get id treeId = some of ↔
      t.gens[(id &&& 0xFFFFFFFF).toNat]? = some (id >>> 32).toUInt32 ∧
        t.at? (id &&& 0xFFFFFFFF).toNat = some of ∧ of.treeId = treeId := by
  unfold get find slot
  dsimp only
  split_ifs with h
  · simp only [Option.bind_some, Option.map_map, Option.map_eq_some_iff,
      Option.filter_eq_some_iff, decide_eq_true_eq, h.1, true_and]
    constructor
    · rintro ⟨of, hof, rfl⟩
      exact hof
    · exact fun hof => ⟨of, hof, rfl⟩
  · simp only [Option.bind_none, Option.map_none, reduceCtorEq, false_iff]
    rintro ⟨hgen, hat, -⟩
    exact h ⟨hgen, by rw [hat]; rfl⟩

/-- The id of a new handle means that handle. -/
theorem get_insert {n : ℕ} (of : OpenFile) (ht : (t.insert of).2.Fits n)
    (hn : n ≤ 2 ^ 32) : (t.insert of).2.get (t.insert of).1 of.treeId = some of := by
  have hat := Slab.at?_insert t of
  have hlt := (List.getElem?_eq_some_iff.1 (Slab.at?_eq_some.1 hat)).1
  have hgens : (Slab.insert t of).1 < (Slab.insert t of).2.gens.length := ht.gens ▸ hlt
  obtain ⟨hidx, hgen⟩ := mkId_parts ((Slab.insert t of).2.gens.getD (Slab.insert t of).1 0)
    (lt_of_lt_of_le hlt (ht.slots.trans hn))
  refine get_eq_some.2 ⟨?_, ?_, rfl⟩
  · unfold insert
    rw [hidx, hgen, List.getD_eq_getElem?_getD, List.getElem?_eq_getElem hgens]
    rfl
  · unfold insert
    rw [hidx]
    exact hat

/-- A change that keeps trees and an attribute of handles keeps what ids mean, up to it. -/
theorem get_modify {A : Type} {id fid : UInt64} (g : OpenFile → A)
    (hf : ∀ of, (f of).treeId = of.treeId ∧ g (f of) = g of)
    (h : (t.modify id treeId f).get fid tree = some of) :
    ∃ of', t.get fid tree = some of' ∧ g of' = g of := by
  unfold modify at h
  split at h
  · exact ⟨of, h, rfl⟩
  · obtain ⟨hgen, hat, htree⟩ := get_eq_some.1 h
    rw [Slab.at?_modifyAt] at hat
    split_ifs at hat
    · obtain ⟨of', hof', rfl⟩ := Option.map_eq_some_iff.1 hat
      exact ⟨of', get_eq_some.2 ⟨hgen, hof', (hf of').1 ▸ htree⟩, (hf of').2.symm⟩
    · exact ⟨of, get_eq_some.2 ⟨hgen, hat, htree⟩, rfl⟩

/-- What an id means after another handle has left. -/
theorem get_remove {id fid : UInt64}
    {of of' : OpenFile} (h : t.remove id treeId = some (of, t'))
    (hget : t'.get fid tree = some of') :
    t.get fid tree = some of' := by
  obtain ⟨⟨idx, f⟩, -, heq⟩ := Option.map_eq_some_iff.1 h
  obtain ⟨rfl, rfl⟩ := Prod.mk.injEq .. ▸ heq
  obtain ⟨hgen, hat, htree⟩ := get_eq_some.1 hget
  by_cases hidx : idx = (fid &&& 0xFFFFFFFF).toNat
  · rw [← hidx, Slab.at?_vacate_self] at hat
    simp at hat
  · obtain ⟨hslot, hgens⟩ := Slab.vacate_ne bump t hidx
    exact get_eq_some.2 ⟨hgens ▸ hgen, hslot ▸ hat, htree⟩

theorem find_slot (h : t.find id treeId = some (idx, of)) :
    idx = (id &&& 0xFFFFFFFF).toNat ∧ t.gens[idx]? = some (id >>> 32).toUInt32 := by
  obtain ⟨i, hslot, hrest⟩ := Option.bind_eq_some_iff.1 h
  obtain ⟨of', -, heq⟩ := Option.map_eq_some_iff.1 hrest
  obtain ⟨rfl, rfl⟩ := Prod.mk.injEq .. ▸ heq
  unfold slot at hslot
  dsimp only at hslot
  split_ifs at hslot with hgen
  obtain rfl := Option.some.inj hslot
  exact ⟨rfl, hgen.1⟩

theorem modify_eq_modifyAt (h : t.get id treeId = some of) (f : OpenFile → OpenFile) :
    t.modify id treeId f = t.modifyAt (id &&& 0xFFFFFFFF).toNat f := by
  obtain ⟨⟨idx, of'⟩, hfind, -⟩ := Option.map_eq_some_iff.1 h
  obtain ⟨rfl, -⟩ := find_slot hfind
  unfold modify
  rw [hfind]

/-- A handle that is changed and stays on its tree keeps its id. -/
theorem get_modify_self (h : t.get id treeId = some of)
    (hf : (f of).treeId = of.treeId) : (t.modify id treeId f).get id treeId = some (f of) := by
  obtain ⟨hgen, hat, htree⟩ := get_eq_some.1 h
  rw [modify_eq_modifyAt h]
  refine get_eq_some.2 ⟨hgen, ?_, hf.trans htree⟩
  rw [Slab.at?_modifyAt, if_pos rfl, hat]
  rfl

/-- Once it is removed a handle has no id. -/
theorem get_remove_self (h : t.remove id treeId = some (of, t')) : t'.get id tree = none := by
  obtain ⟨⟨idx, f⟩, hfind, heq⟩ := Option.map_eq_some_iff.1 h
  obtain ⟨rfl, rfl⟩ := Prod.mk.injEq .. ▸ heq
  refine Option.eq_none_iff_forall_ne_some.2 fun of hof => ?_
  have hat := (get_eq_some.1 hof).2.1
  rw [← (find_slot hfind).1, Slab.at?_vacate_self] at hat
  simp at hat

theorem get_of_remove_none (h : t.remove id treeId = none) : t.get id treeId = none := by
  unfold remove at h
  unfold get
  rw [Option.map_eq_none_iff.1 h]
  rfl

/-- Every handle in a table of this size has an id. -/
theorem get_of_mem_live {n : ℕ} (ht : t.Fits n) (hn : n ≤ 2 ^ 32)
    (hof : of ∈ t.live) : ∃ id, t.get id of.treeId = some of := by
  obtain ⟨i, hi⟩ := Slab.mem_live.1 hof
  have hlt := (List.getElem?_eq_some_iff.1 (Slab.at?_eq_some.1 hi)).1
  have hgen : i < t.gens.length := ht.gens ▸ hlt
  obtain ⟨hidx, hparts⟩ := mkId_parts t.gens[i] (hlt.trans_le (ht.slots.trans hn))
  refine ⟨mkId t.gens[i] i, get_eq_some.2 ⟨?_, ?_, rfl⟩⟩
  · rw [hidx, hparts, List.getElem?_eq_getElem hgen]
  · rw [hidx]
    exact hi

theorem mem_idsInTree (h : t.get id treeId = some of) : id ∈ t.idsInTree treeId := by
  obtain ⟨hgen, hat, htree⟩ := get_eq_some.1 h
  have hlt := (List.getElem?_eq_some_iff.1 (Slab.at?_eq_some.1 hat)).1
  refine List.mem_map.2 ⟨(id &&& 0xFFFFFFFF).toNat, List.mem_filter.2 ⟨?_, ?_⟩, ?_⟩
  · exact List.mem_range.2 hlt
  · rw [hat]
    simpa using htree
  · rw [List.getD_eq_getElem?_getD, hgen]
    exact mkId_self id

theorem fits_remove {n : ℕ}
    (h : t.remove id treeId = some (of, t')) (ht : t.Fits n) : t'.Fits n := by
  obtain ⟨⟨idx, f⟩, -, heq⟩ := Option.map_eq_some_iff.1 h
  obtain ⟨rfl, rfl⟩ := Prod.mk.injEq .. ▸ heq
  exact ht.vacate bump idx

theorem fits_modify {n : ℕ} (ht : t.Fits n) (id : UInt64) (treeId : UInt32)
    (f : OpenFile → OpenFile) : (t.modify id treeId f).Fits n := by
  unfold modify
  split
  · exact ht
  · exact ht.modifyAt _ f

end HandleTable

end Vfs

end RocketSmbd
