import RocketSmbd.Codec
import RocketSmbd.Smb2.OutputBuffer
import RocketSmbd.Smb2.Query

/-!
# The records of a directory listing

A QUERY_DIRECTORY response is a chain of 8-aligned records.  The server writes each one linked to
the next and sets the NextEntryOffset of the last back to zero when it knows which that is.

* `readDirEntry` is the client's side: how a record of each information class is laid out;
* `listEntries_holds`: what the loop over the entries writes;
* `Listing.Holds.read`: what a client reads in it.
-/

namespace RocketSmbd

open ByteString Linked Vfs
variable {infoClass : UInt8} {l : Listing} {outLen : ℕ} {rs : List Bytes}

/-! ### Records -/

/-- The information classes of QUERY_DIRECTORY. -/
def dirClasses : List UInt8 :=
  [fileDirectoryInformation, fileFullDirectoryInformation, fileBothDirectoryInformation,
    fileNamesInformation, fileIdBothDirectoryInformation, fileIdFullDirectoryInformation]

/-- What most information classes tell about a file. -/
structure DirStat where
  crtime : UInt64
  atime : UInt64
  mtime : UInt64
  ctime : UInt64
  size : UInt64
  alloc : UInt64
  attrs : UInt32
  deriving DecidableEq

/-- What a client learns from a record. -/
structure DirView where
  name : Str
  stat : Option DirStat
  ino : Option UInt64
  deriving DecidableEq

/-- What an information class shows of an entry. -/
def dirView (infoClass : UInt8) (e : DirEnt) : DirView where
  name := e.name
  stat :=
    if infoClass = fileNamesInformation then none
    else some ⟨e.info.crtime, e.info.atime, e.info.mtime, e.info.ctime, e.info.size, e.info.alloc,
      e.info.attrs⟩
  ino :=
    if infoClass = fileIdBothDirectoryInformation ∨ infoClass = fileIdFullDirectoryInformation then
      some e.info.ino
    else none

/-- What lies between FileNameLength and FileName: EaSize, the short name, the file id. -/
def readDirExtra (infoClass : UInt8) : Rdr (Option UInt64) :=
  if infoClass = fileDirectoryInformation then pure none
  else if infoClass = fileFullDirectoryInformation then do
    Rdr.skip 4
    pure none
  else if infoClass = fileBothDirectoryInformation then do
    Rdr.skip 30
    pure none
  else if infoClass = fileIdBothDirectoryInformation then do
    Rdr.skip 32
    let ino ← Rdr.u64
    pure (some ino)
  else if infoClass = fileIdFullDirectoryInformation then do
    Rdr.skip 8
    let ino ← Rdr.u64
    pure (some ino)
  else Rdr.fail

/-- A client reads a record, behind its NextEntryOffset and FileIndex. -/
def readDirEntry (infoClass : UInt8) : Rdr DirView := do
  Rdr.skip 8
  if infoClass = fileNamesInformation then do
    let len ← Rdr.u32
    let name ← Rdr.take len.toNat
    pure { name := fromUtf16le name, stat := none, ino := none }
  else do
    let crtime ← Rdr.u64
    let atime ← Rdr.u64
    let mtime ← Rdr.u64
    let ctime ← Rdr.u64
    let size ← Rdr.u64
    let alloc ← Rdr.u64
    let attrs ← Rdr.u32
    let len ← Rdr.u32
    let ino ← readDirExtra infoClass
    let name ← Rdr.take len.toNat
    pure { name := fromUtf16le name, stat := some ⟨crtime, atime, mtime, ctime, size, alloc, attrs⟩,
           ino }

/-- The name of an entry, at the length stated before it. -/
theorem take_name {name : Str} (hlen : (utf16le name).length < 256 ^ 4) (rest : Bytes) :
    Rdr.take (UInt32.ofNat (utf16le name).length).toNat (utf16le name ++ rest) =
      some (utf16le name, rest) := by
  have htoNat : (UInt32.ofNat (utf16le name).length).toNat = (utf16le name).length :=
    UInt32.toNat_ofNat_of_lt hlen
  rw [htoNat]
  exact Rdr.take_append _ _

theorem readDirExtra_run {m : Meta} {extra : Bytes}
    (h : dirEntryExtra infoClass m = some extra) (rest : Bytes) :
    readDirExtra infoClass (extra ++ rest) =
      some (if infoClass = fileIdBothDirectoryInformation ∨
          infoClass = fileIdFullDirectoryInformation then some m.ino else none, rest) := by
  unfold dirEntryExtra at h
  unfold readDirExtra
  split_ifs at h with h₁ h₂ h₃ h₄ h₅
  · obtain rfl := Option.some.inj h
    subst h₁
    rfl
  · obtain rfl := Option.some.inj h
    subst h₂
    rfl
  · obtain rfl := Option.some.inj h
    subst h₃
    exact Rdr.bind_run (Rdr.skip_append (by simp) rest)
  · obtain rfl := Option.some.inj h
    subst h₄
    rw [List.append_assoc _ (p64 m.ino)]
    exact (Rdr.bind_run (Rdr.skip_append (by simp) _)).trans (Rdr.bind_run (Rdr.u64_p64 _ _))
  · obtain rfl := Option.some.inj h
    subst h₅
    rw [List.append_assoc _ (p64 m.ino)]
    exact (Rdr.bind_run (Rdr.skip_append (by simp) _)).trans (Rdr.bind_run (Rdr.u64_p64 _ _))

theorem dirEntryExtra_isSome (hc : infoClass ∈ dirClasses)
    (hnames : infoClass ≠ fileNamesInformation) (m : Meta) :
    ∃ extra, dirEntryExtra infoClass m = some extra := by
  simp only [dirClasses, List.mem_cons, List.not_mem_nil, or_false] at hc
  unfold dirEntryExtra
  split_ifs with h₁ h₂ h₃ h₄ h₅
  iterate 5 exact ⟨_, rfl⟩
  tauto

/-- A record of a supported class: the server writes it, and the client reads it back whatever
its NextEntryOffset has become and whatever pads it. -/
theorem putDirEntry_read (hc : infoClass ∈ dirClasses) (e : DirEnt) :
    ∃ body, putDirEntry infoClass e = some (p32 0 ++ body) ∧
      (body.length < 256 ^ 4 → ∀ f tail : Bytes, f.length = 4 →
        readDirEntry infoClass (f ++ body ++ tail) = some (dirView infoClass e, tail)) := by
  unfold putDirEntry
  dsimp only
  by_cases hnames : infoClass = fileNamesInformation
  · rw [if_pos hnames]
    refine ⟨p32 0 ++ p32 (UInt32.ofNat (utf16le e.name).length) ++ utf16le e.name,
      by simp only [List.append_assoc], fun hlen f tail hf => ?_⟩
    have hname : (utf16le e.name).length < 256 ^ 4 := by
      rw [List.length_append] at hlen
      omega
    have hskip : (f ++ p32 0).length = 8 := by rw [List.length_append, hf, p32_length]
    have hsplit : f ++ (p32 0 ++ p32 (UInt32.ofNat (utf16le e.name).length) ++ utf16le e.name) ++
        tail = (f ++ p32 0) ++ (p32 (UInt32.ofNat (utf16le e.name).length) ++
          (utf16le e.name ++ tail)) := by
      simp only [List.append_assoc]
    subst hnames
    rw [hsplit, readDirEntry, Rdr.bind_run (Rdr.skip_append hskip _), if_pos rfl,
      Rdr.bind_run (Rdr.u32_p32 _ _), Rdr.bind_run (take_name hname tail), fromUtf16le_utf16le]
    rfl
  · obtain ⟨extra, hextra⟩ := dirEntryExtra_isSome hc hnames e.info
    rw [if_neg hnames, hextra]
    refine ⟨p32 0 ++ (p64 e.info.crtime ++ (p64 e.info.atime ++ (p64 e.info.mtime ++
      (p64 e.info.ctime ++ (p64 e.info.size ++ (p64 e.info.alloc ++ (p32 e.info.attrs ++
      (p32 (UInt32.ofNat (utf16le e.name).length) ++ (extra ++ utf16le e.name))))))))),
      by simp only [Option.map_some, List.append_assoc], fun hlen f tail hf => ?_⟩
    have hname : (utf16le e.name).length < 256 ^ 4 := by
      simp only [List.length_append] at hlen
      omega
    have hskip : (f ++ p32 0).length = 8 := by rw [List.length_append, hf, p32_length]
    rw [← List.append_assoc f, List.append_assoc, readDirEntry,
      Rdr.bind_run (Rdr.skip_append hskip _), if_neg hnames]
    simp only [List.append_assoc]
    rw [Rdr.bind_run (Rdr.u64_p64 _ _), Rdr.bind_run (Rdr.u64_p64 _ _),
      Rdr.bind_run (Rdr.u64_p64 _ _), Rdr.bind_run (Rdr.u64_p64 _ _),
      Rdr.bind_run (Rdr.u64_p64 _ _), Rdr.bind_run (Rdr.u64_p64 _ _),
      Rdr.bind_run (Rdr.u32_p32 _ _), Rdr.bind_run (Rdr.u32_p32 _ _),
      Rdr.bind_run (readDirExtra_run hextra _), Rdr.bind_run (take_name hname tail),
      fromUtf16le_utf16le, dirView, if_neg hnames]
    rfl

/-- The record of an entry, in a supported class. -/
def dirRecord (infoClass : UInt8) (e : DirEnt) : Bytes := (putDirEntry infoClass e).getD []

theorem dirRecord_read (hc : infoClass ∈ dirClasses) (e : DirEnt) :
    ∃ body, dirRecord infoClass e = p32 0 ++ body ∧
      (body.length < 256 ^ 4 → ∀ f tail : Bytes, f.length = 4 →
        Rdr.parse (readDirEntry infoClass) (f ++ body ++ tail) = some (dirView infoClass e)) := by
  obtain ⟨body, hput, hread⟩ := putDirEntry_read hc e
  refine ⟨body, by rw [dirRecord, hput]; rfl, fun hlen f tail hf => ?_⟩
  rw [Rdr.parse, hread hlen f tail hf]
  rfl

/-! ### What one call writes -/

theorem alignEntry_eq_link (entry : Bytes) : alignEntry entry = link 0 8 entry := by
  rw [alignEntry, patch32, p32_ofNat]
  rfl

/-- The listing is made of the records `rs`, each linked. -/
structure Listing.Holds (outLen : ℕ) (rs : List Bytes) (l : Listing) : Prop where
  data : l.data = (rs.map (link 0 8)).flatten
  last : l.lastEntryStart = (rs.dropLast.map (link 0 8)).flatten.length
  emitted : l.emitted = rs.length
  fits : l.data.length ≤ outLen

theorem Listing.Holds.push (h : l.Holds outLen rs)
    {entry : Bytes} (hroom : l.data.length + (alignEntry entry).length ≤ outLen) :
    Listing.Holds outLen (rs ++ [entry])
      ⟨l.data ++ alignEntry entry, l.data.length, l.emitted + 1⟩ where
  data := by rw [alignEntry_eq_link, h.data]; simp
  last := by rw [List.dropLast_concat, h.data]
  emitted := by rw [h.emitted, List.length_append, List.length_singleton]
  fits := by rwa [List.length_append]

/-- The loop goes on with the records of the next entries. -/
theorem listEntries_holds {single : Bool} {es : List DirEnt}
    {l l' : Listing} (h : listEntries infoClass single outLen es l = some l')
    (hl : l.Holds outLen rs) :
    ∃ k ≤ es.length, l'.Holds outLen (rs ++ (es.take k).map (dirRecord infoClass)) := by
  induction es generalizing l rs with
  | nil =>
    obtain rfl := Option.some.inj h
    exact ⟨0, le_rfl, by rwa [List.take_zero, List.map_nil, List.append_nil]⟩
  | cons e es ih =>
    unfold listEntries at h
    split at h
    · exact nomatch h
    · next entry hentry =>
      dsimp only at h
      split at h
      · obtain rfl := Option.some.inj h
        exact ⟨0, Nat.zero_le _, by rwa [List.take_zero, List.map_nil, List.append_nil]⟩
      · next hroom =>
        have hrecord : entry = dirRecord infoClass e := by rw [dirRecord, hentry]; rfl
        have hpush := hl.push (not_lt.1 hroom)
        split at h
        · -- RETURN_SINGLE stops here
          obtain rfl := Option.some.inj h
          exact ⟨1, by simp, hrecord ▸ hpush⟩
        · obtain ⟨k, hk, hl'⟩ := ih h hpush
          refine ⟨k + 1, by simpa using hk, ?_⟩
          rwa [List.append_assoc, hrecord] at hl'

/-- A supported class never stops the loop. -/
theorem listEntries_isSome (hc : infoClass ∈ dirClasses) (single : Bool)
    (outLen : ℕ) (es : List DirEnt) (l : Listing) :
    ∃ l', listEntries infoClass single outLen es l = some l' := by
  induction es generalizing l with
  | nil => exact ⟨l, rfl⟩
  | cons e es ih =>
    obtain ⟨body, hput, -⟩ := putDirEntry_read hc e
    unfold listEntries
    rw [hput]
    dsimp only
    split_ifs
    · exact ⟨_, rfl⟩
    · exact ⟨_, rfl⟩
    · exact ih _

/-- The NextEntryOffset of the last record is set back to zero. -/
theorem Listing.Holds.finish {body : Bytes} (h : l.Holds outLen (rs ++ [p32 0 ++ body])) :
    patch32 l.data l.lastEntryStart 0 =
      (chain 0 8 ((rs ++ [p32 0 ++ body]).map (padTo 8))).flatten := by
  have hlink : ∀ b : Bytes, link 0 8 (padTo 8 b) = link 0 8 b := link_padTo (by decide)
  have hlast : patch (link 0 8 (p32 0 ++ body)) 0 (p32 0) = padTo 8 (p32 0 ++ body) := by
    have hpart := patch_part [] (leBytes 4 (padTo 8 (p32 0 ++ body)).length)
      (body ++ zeros ((8 - (p32 0 ++ body).length % 8) % 8)) (p32 0) (by simp)
    rw [link_head _ _ (p32_length 0), List.append_assoc]
    exact hpart.trans (by rw [padTo]; simp)
  rw [patch32, h.data, h.last, List.dropLast_concat, List.map_append, List.flatten_append,
    List.map_singleton, List.flatten_singleton]
  have hpatch := patch_append_right (rs.map (link 0 8)).flatten (link 0 8 (p32 0 ++ body)) (p32 0) 0
  rw [Nat.add_zero] at hpatch
  rw [hpatch, hlast, List.map_append, List.map_singleton, chain_concat, List.map_map,
    List.flatten_append, List.flatten_singleton]
  congr 2
  exact (List.map_congr_left fun b _ => hlink b).symm

theorem Listing.Holds.finish_length {body : Bytes} (h : l.Holds outLen (rs ++ [p32 0 ++ body])) :
    (patch32 l.data l.lastEntryStart 0).length = l.data.length := by
  have hrecord : 0 + 4 ≤ (p32 0 ++ body).length := by
    rw [List.length_append, p32_length]
    omega
  have hpad : (p32 0 ++ body).length ≤ (padTo 8 (p32 0 ++ body)).length := length_le_padTo
  have hlen : l.data.length =
      l.lastEntryStart + (padTo 8 (p32 0 ++ body)).length := by
    rw [h.data, h.last, List.dropLast_concat, List.map_append, List.flatten_append,
      List.length_append, List.map_singleton, List.flatten_singleton, length_link hrecord]
  refine patch_length ?_
  rw [p32_length, hlen]
  omega

/-- The data of a reply is a chain that reads as the entries it was made of. -/
theorem Listing.Holds.read (hc : infoClass ∈ dirClasses)
    (hout : outLen < 256 ^ 4) {es : List DirEnt} (hne : es ≠ [])
    (h : l.Holds outLen (es.map (dirRecord infoClass))) :
    let data := patch32 l.data l.lastEntryStart 0
    data.length ≤ outLen ∧ ∃ records, IsChain 0 8 data records ∧
      records.map (Rdr.parse (readDirEntry infoClass)) =
        es.map fun e => some (dirView infoClass e) := by
  intro data
  obtain ⟨hdata, hfits⟩ :
      data = (chain 0 8 (es.map fun e => padTo 8 (dirRecord infoClass e))).flatten ∧
        data.length ≤ outLen := by
    obtain ⟨init, e, rfl⟩ := (List.eq_nil_or_concat' es).resolve_left hne
    obtain ⟨body, hbody, -⟩ := dirRecord_read hc e
    have hlast : (init ++ [e]).map (dirRecord infoClass) =
        init.map (dirRecord infoClass) ++ [p32 0 ++ body] := by
      rw [List.map_append, List.map_singleton, hbody]
    rw [hlast] at h
    refine ⟨h.finish.trans ?_, h.finish_length.trans_le h.fits⟩
    rw [← hlast, List.map_map]
    rfl
  -- every record starts with a zero offset, and reads as its entry linked or not
  have hrecord : ∀ b ∈ es.map (fun e => padTo 8 (dirRecord infoClass e)),
      0 + 4 ≤ b.length ∧ distance 0 b = 0 := by
    intro b hb
    obtain ⟨e, -, rfl⟩ := List.mem_map.1 hb
    obtain ⟨body, hbody, -⟩ := dirRecord_read hc e
    rw [hbody, padTo, List.append_assoc]
    refine ⟨?_, distance_p32_zero _⟩
    rw [List.length_append, p32_length]
    omega
  have hread : ∀ e ∈ es,
      Rdr.parse (readDirEntry infoClass) (padTo 8 (dirRecord infoClass e)) =
          some (dirView infoClass e) ∧
        Rdr.parse (readDirEntry infoClass) (link 0 8 (padTo 8 (dirRecord infoClass e))) =
          some (dirView infoClass e) := by
    intro e he
    obtain ⟨body, hbody, hparse⟩ := dirRecord_read hc e
    have hpad : (p32 0 ++ body).length ≤ (padTo 8 (p32 0 ++ body)).length := length_le_padTo
    have hlen := length_le_chain (o := 0) (a := 8) (fun b hb => (hrecord b hb).1)
      (List.mem_map_of_mem he)
    rw [← hdata, hbody] at hlen
    have hsmall : body.length < 256 ^ 4 := by
      rw [List.length_append] at hpad
      omega
    rw [link_padTo (by decide), hbody]
    constructor
    · exact hparse hsmall (p32 0) _ (p32_length 0)
    · rw [link_head _ _ (p32_length 0)]
      exact hparse hsmall _ _ (leBytes_length 4 _)
  have hlt : (chain 0 8 (es.map fun e => padTo 8 (dirRecord infoClass e))).flatten.length <
      256 ^ 4 := by
    rw [← hdata]
    omega
  refine ⟨hfits, _, hdata ▸ isChain_chain (by decide) (by simpa using hne) hrecord hlt, ?_⟩
  rw [map_chain, List.map_map]
  · exact List.map_congr_left fun e he => (hread e he).1
  · intro b hb
    obtain ⟨e, he, rfl⟩ := List.mem_map.1 hb
    rw [(hread e he).1, (hread e he).2]

end RocketSmbd
