import RocketSmbd.Sample
import RocketSmbd.Smb2.DirRecords
import RocketSmbd.Smb2.Runs

/-!
# Directory enumeration

A directory handle keeps a snapshot of the entries and a cursor into it.  Each QUERY_DIRECTORY
sends as many entries from the cursor on as fit the client's buffer and moves the cursor behind
them.

* `DirCall.answers`: what one call sends and where it leaves the cursor;
* `enumeration_exact`: over any sequence of calls on one handle the client receives an initial
  segment of the snapshot, in order and each entry once.
-/

namespace RocketSmbd

open ByteString Linked Vfs

variable {σ : Type}

/-! ### One call -/

/-- The handle `fid` of the chain's tree. -/
def Sx.handle (s : Sx σ) (fid : UInt64) : Option OpenFile :=
  s.sess.handles.get fid s.chain.treeId

theorem setHandle_handle {s : Sx σ} {fid : UInt64} {of : OpenFile} {f : OpenFile → OpenFile}
    (hof : s.handle fid = some of) (hf : (f of).treeId = of.treeId) :
    ∃ s', Handler.setHandle fid f s = (.ok (), s') ∧ s'.chain = s.chain ∧
      s'.handle fid = some (f of) :=
  ⟨_, rfl, rfl, HandleTable.get_modify_self hof hf⟩

/-- A QUERY_DIRECTORY and the state it meets. -/
structure DirCall (σ : Type) where
  s : Sx σ
  h : ReqHdr
  msg : Bytes

namespace DirCall

variable (srv : Srv σ) (c : DirCall σ) (fid : UInt64)

def req : Option QueryDirReq := Rdr.parse (queryDirFields c.msg c.s.chain) (c.msg.drop 64)

def run : Except UInt32 Body × Sx σ := queryDirectory srv c.msg c.s

/-- The response on the wire. -/
def reply : Bytes := putReply [] c.h (c.run srv).2.chain (c.run srv).1

/-- The directory state that the call leaves in the handle. -/
def dirAfter : Option DirState := ((c.run srv).2.handle fid).bind OpenFile.dir

/-- The records of a successful reply, as the client reads them. -/
def received : List (Option DirView) :=
  match c.req with
  | none => []
  | some r =>
    if respStatus (c.reply srv) = Status.success then
      let data := respData (c.reply srv)
      (follow 0 data.length data).map (Rdr.parse (readDirEntry r.infoClass))
    else []

/-- The call is one for a supported class on the directory handle `fid`, whose directory state is
`dir`, with a pattern and without starting over. -/
structure On (pattern : Str) (dir : Option DirState) (r : QueryDirReq) : Prop where
  req : c.req = some r
  sameFid : r.fid = fid
  samePattern : r.pattern = pattern
  flags : r.flags &&& (qdRestartScans ||| qdReopen) = 0
  infoClass : r.infoClass ∈ dirClasses
  handle : ∃ of, c.s.handle fid = some of ∧ of.isDir = true ∧ of.dir = dir

/-- The call works on the snapshot `entries` from position `n` on: the handle is there already, or
has no snapshot for the pattern and takes this one. -/
def Works (pattern : Str) (dir : Option DirState) (entries : List DirEnt) (n : ℕ) : Prop :=
  dir = some ⟨entries, n, pattern⟩ ∨
    n = 0 ∧ (∀ d, dir = some d → d.pattern ≠ pattern) ∧ ∀ of, c.s.handle fid = some of →
      (dirSnapshot srv.env.os srv.env.toLowercase of pattern c.s.host.os).1 = .ok entries

variable {srv c fid} {pattern : Str} {dir : Option DirState} {r : QueryDirReq}
  {entries : List DirEnt} {n : ℕ}

section

variable (hon : c.On fid pattern dir r) (hw : c.Works srv fid pattern dir entries n)
include hon hw

theorem dirState_run {of : OpenFile} (hof : c.s.handle fid = some of) (hdir : of.dir = dir) :
    ∃ s' of', dirState srv r of c.s = (.ok ⟨entries, n, pattern⟩, s') ∧
      s'.chain = c.s.chain ∧ s'.handle fid = some of' ∧
      of'.dir = some ⟨entries, n, pattern⟩ := by
  have hflags : ¬ r.flags &&& (qdRestartScans ||| qdReopen) ≠ 0 := not_not.2 hon.flags
  unfold dirState
  dsimp only
  rw [hdir]
  rcases hw with rfl | ⟨rfl, hother, hsnap⟩
  · have hkept : (some (⟨entries, n, pattern⟩ : DirState)).filter (fun d =>
        ¬ r.flags &&& (qdRestartScans ||| qdReopen) ≠ 0 ∧ d.pattern = r.pattern) =
        some ⟨entries, n, pattern⟩ := by
      rw [Option.filter_some, if_pos]
      simpa using ⟨hon.flags, hon.samePattern.symm⟩
    rw [hkept]
    exact ⟨c.s, of, rfl, rfl, hof, hdir⟩
  · have hkept : dir.filter (fun d =>
        ¬ r.flags &&& (qdRestartScans ||| qdReopen) ≠ 0 ∧ d.pattern = r.pattern) = none := by
      rw [Option.filter_eq_none_iff]
      intro d hd
      simp [hon.samePattern, hother d hd]
    rw [hkept, hon.sameFid, hon.samePattern]
    dsimp only
    have hsys : dirSnapshot srv.env.os srv.env.toLowercase of pattern c.s.host.os =
        (.ok entries, (dirSnapshot srv.env.os srv.env.toLowercase of pattern c.s.host.os).2) :=
      Prod.ext (hsnap of hof) rfl
    rw [Eff.bind_run_ok (sys_run_ok hsys)]
    obtain ⟨s', hset, hchain, hhandle⟩ := setHandle_handle
      (s := c.s.onOs (dirSnapshot srv.env.os srv.env.toLowercase of pattern c.s.host.os).2)
      (f := fun of => { of with dir := some ⟨entries, 0, pattern⟩ }) hof rfl
    rw [Eff.bind_run_ok hset]
    exact ⟨s', _, rfl, hchain, hhandle, rfl⟩

/-- What becomes of a call: nothing is left, not even the next entry fits, or the records of the
next entries are sent. -/
theorem run_cases (hne : entries ≠ []) :
    entries.length ≤ n ∧ (c.run srv).1 = .error Status.noMoreFiles ∧
        c.dirAfter srv fid = some ⟨entries, n, pattern⟩ ∨
      n < entries.length ∧ (c.run srv).1 = .error Status.bufferTooSmall ∧
        c.dirAfter srv fid = some ⟨entries, n, pattern⟩ ∨
      ∃ k, 0 < k ∧ n + k ≤ entries.length ∧
        c.dirAfter srv fid = some ⟨entries, n + k, pattern⟩ ∧
        ∃ data records, (c.run srv).1 = .ok (Status.success, outputBody data) ∧
          data.length ≤ r.outLen.toNat ∧ IsChain 0 8 data records ∧
          records.map (Rdr.parse (readDirEntry r.infoClass)) =
            ((entries.drop n).take k).map fun e => some (dirView r.infoClass e) := by
  obtain ⟨of, hof, hisDir, hdir⟩ := hon.handle
  obtain ⟨s', of', hstate, hchain, hhandle, hdir'⟩ := dirState_run hon hw hof hdir
  have hfind : c.s.sess.handles.get r.fid c.s.chain.treeId = some of := hon.sameFid ▸ hof
  have hreq : Rdr.parse (queryDirFields c.msg c.s.chain) (c.msg.drop 64) = some r := hon.req
  have hrun : c.run srv = (do
      Eff.refuse (entries.length ≤ n)
        (if entries.isEmpty then Status.noSuchFile else Status.noMoreFiles)
      let l ← Eff.need Status.invalidParameter
        (listEntries r.infoClass (r.flags &&& qdReturnSingle ≠ 0) (min r.outLen maxTransact).toNat
          (entries.drop n) {})
      Handler.setHandle r.fid fun of =>
        { of with dir := some ⟨entries, n + l.emitted, pattern⟩ }
      Eff.refuse (l.emitted = 0) Status.bufferTooSmall
      let data := patch32 l.data l.lastEntryStart 0
      pure (Status.success, outputBody data) : Handler σ Body) s' := by
    unfold run queryDirectory
    rw [Eff.bind_run_ok (Eff.read_run c.s), Eff.bind_run_ok (need_run hreq c.s),
      Eff.bind_run_ok (getHandle_run hfind),
      Eff.bind_run_ok (refuse_run (by simpa using hisDir) c.s), Eff.bind_run_ok hstate]
    rfl
  have hsome : ¬ entries.isEmpty = true := by simpa using hne
  by_cases hall : entries.length ≤ n
  · -- the cursor is at the end
    rw [Eff.bind_run_error (refuse_run_error hall s'), if_neg hsome] at hrun
    refine Or.inl ⟨hall, by rw [hrun], ?_⟩
    rw [dirAfter, hrun, hhandle]
    exact hdir'
  · obtain ⟨l, hl⟩ := listEntries_isSome hon.infoClass (r.flags &&& qdReturnSingle ≠ 0)
      (min r.outLen maxTransact).toNat (entries.drop n) {}
    have hempty : Listing.Holds (min r.outLen maxTransact).toNat [] {} :=
      ⟨rfl, rfl, rfl, Nat.zero_le _⟩
    obtain ⟨k, hk, hholds⟩ := listEntries_holds hl hempty
    rw [List.nil_append] at hholds
    rw [List.length_drop] at hk
    have hemitted : l.emitted = k := by
      rw [hholds.emitted, List.length_map, List.length_take, List.length_drop, Nat.min_eq_left hk]
    obtain ⟨s'', hset, -, hhandle'⟩ := setHandle_handle (s := s')
      (f := fun of => { of with dir := some ⟨entries, n + l.emitted, pattern⟩ }) hhandle rfl
    rw [Eff.bind_run_ok (refuse_run hall s'), Eff.bind_run_ok (need_run hl s'), hon.sameFid,
      Eff.bind_run_ok hset] at hrun
    rcases Nat.eq_zero_or_pos k with rfl | hpos
    · rw [Eff.bind_run_error (refuse_run_error hemitted s'')] at hrun
      refine Or.inr (Or.inl ⟨not_le.1 hall, by rw [hrun], ?_⟩)
      rw [dirAfter, hrun, hhandle', hemitted]
      rfl
    · have hnz : ¬ l.emitted = 0 := by omega
      have hout : (min r.outLen maxTransact).toNat ≤ r.outLen.toNat := by
        rw [UInt32.toNat_min]
        exact min_le_left _ _
      have hnext : (entries.drop n).take k ≠ [] := by
        intro h
        have hlen := congrArg List.length h
        rw [List.length_take, List.length_drop, List.length_nil] at hlen
        omega
      obtain ⟨hfits, records, hchain', hread⟩ := hholds.read hon.infoClass
        (hout.trans_lt r.outLen.toNat_lt) hnext
      rw [Eff.bind_run_ok (refuse_run hnz s'')] at hrun
      refine Or.inr (Or.inr ⟨k, hpos, by omega, ?_, _, records, by rw [hrun]; rfl,
        hfits.trans hout, hchain', hread⟩)
      rw [dirAfter, hrun]
      change (s''.handle fid).bind OpenFile.dir = _
      rw [hhandle', hemitted]
      rfl

end

theorem reply_error {st : UInt32} (h : (c.run srv).1 = .error st) :
    respStatus (c.reply srv) = st := by
  rw [reply, h]
  exact respStatus_respHdr ..

theorem reply_ok {st : UInt32} {data : Bytes} (h : (c.run srv).1 = .ok (st, outputBody data))
    (hlen : data.length < 256 ^ 4) :
    respStatus (c.reply srv) = st ∧ respData (c.reply srv) = data := by
  rw [reply, h]
  exact ⟨respStatus_respHdr .., respData_outputBody data (respHdr_length ..) hlen⟩

variable (srv c fid pattern entries n) in
/-- What a client may rely on when the first `n` entries of the snapshot have been delivered. -/
structure Answers : Prop where
  status : respStatus (c.reply srv) ∈
    [Status.success, Status.bufferTooSmall, Status.noMoreFiles]
  /-- The data fits, and is a chain of 8-aligned records whose last offset is zero. -/
  fits : ∀ r, c.req = some r → respStatus (c.reply srv) = Status.success →
    (respData (c.reply srv)).length ≤ r.outLen.toNat ∧
      ∃ records, IsChain 0 8 (respData (c.reply srv)) records
  /-- What is received is the next entries, at least one of them exactly on success. -/
  received : ∀ r, c.req = some r → c.received srv =
    ((entries.drop n).take (c.received srv).length).map fun e => some (dirView r.infoClass e)
  nonempty : c.received srv ≠ [] ↔ respStatus (c.reply srv) = Status.success
  room : n + (c.received srv).length ≤ entries.length
  /-- The cursor moves by what is received. -/
  cursor : c.dirAfter srv fid = some ⟨entries, n + (c.received srv).length, pattern⟩
  tooSmall : respStatus (c.reply srv) = Status.bufferTooSmall →
    c.dirAfter srv fid = some ⟨entries, n, pattern⟩
  noMore : respStatus (c.reply srv) = Status.noMoreFiles ↔ n = entries.length

/-- A reply with an error delivers nothing and leaves the cursor where it is. -/
theorem answers_error (hon : c.On fid pattern dir r) {st : UInt32}
    (hrun : (c.run srv).1 = .error st) (hst : st = Status.bufferTooSmall ∨ st = Status.noMoreFiles)
    (hafter : c.dirAfter srv fid = some ⟨entries, n, pattern⟩) (hn : n ≤ entries.length)
    (hall : st = Status.noMoreFiles ↔ n = entries.length) :
    c.Answers srv fid pattern entries n := by
  have hstatus := reply_error hrun
  have hfail : respStatus (c.reply srv) ≠ Status.success := by
    rw [hstatus]
    rcases hst with rfl | rfl <;> decide
  have hnone : c.received srv = [] := by
    rw [received, hon.req]
    exact if_neg hfail
  exact {
    status := by
      rw [hstatus]
      simpa using Or.inr hst
    fits := fun _ _ h => absurd h hfail
    received := fun _ _ => by simp [hnone]
    nonempty := iff_of_false (not_not.2 hnone) hfail
    room := by simpa [hnone] using hn
    cursor := by simpa [hnone] using hafter
    tooSmall := fun _ => hafter
    noMore := by rw [hstatus, hall] }

theorem answers (hon : c.On fid pattern dir r) (hw : c.Works srv fid pattern dir entries n)
    (hne : entries ≠ []) (hn : n ≤ entries.length) : c.Answers srv fid pattern entries n := by
  rcases run_cases hon hw hne with ⟨hall, hrun, hafter⟩ | ⟨hlt, hrun, hafter⟩ |
    ⟨k, hpos, hk, hafter, data, records, hrun, hfits, hchain, hread⟩
  · exact answers_error hon hrun (Or.inr rfl) hafter hn (iff_of_true rfl (le_antisymm hn hall))
  · exact answers_error hon hrun (Or.inl rfl) hafter hn (iff_of_false (by decide) hlt.ne)
  · obtain ⟨hstatus, hdata⟩ := reply_ok hrun (hfits.trans_lt r.outLen.toNat_lt)
    have hreceived : c.received srv =
        ((entries.drop n).take k).map fun e => some (dirView r.infoClass e) := by
      rw [← hread, ← hchain.follow, received, hon.req]
      dsimp only
      rw [if_pos hstatus, hdata]
    have hlen : (c.received srv).length = k := by
      rw [hreceived, List.length_map, List.length_take, List.length_drop]
      omega
    have hreq : ∀ r', c.req = some r' → r' = r := by
      intro r' h
      exact Option.some.inj (h.symm.trans hon.req)
    exact {
      status := by simp [hstatus]
      fits := fun r' hr' _ => by
        rw [hreq r' hr', hdata]
        exact ⟨hfits, records, hchain⟩
      received := fun r' hr' => by rw [hlen, hreq r' hr', hreceived]
      nonempty := iff_of_true (fun h => by simp [h] at hlen; omega) hstatus
      room := hlen ▸ hk
      cursor := hlen ▸ hafter
      tooSmall := fun h => absurd (hstatus.symm.trans h) (by decide)
      noMore := iff_of_false (hstatus ▸ by decide) (by omega) }

end DirCall

/-! ### A sequence of calls -/

section

open DirCall

variable (srv : Srv σ) (fid : UInt64) (pattern : Str)

/-- Calls on one handle, each in any state that has kept what the one before left in the handle. -/
inductive Scan : Option DirState → List (DirCall σ) → Prop
  | nil (dir : Option DirState) : Scan dir []
  | cons {dir : Option DirState} {c : DirCall σ} {r : QueryDirReq} {cs : List (DirCall σ)}
    (hon : c.On fid pattern dir r) (hcs : Scan (c.dirAfter srv fid) cs) : Scan dir (c :: cs)

variable {srv fid pattern} {dir : Option DirState} {calls : List (DirCall σ)}
  {entries : List DirEnt}

/-- The names received. -/
def namesReceived (srv : Srv σ) (calls : List (DirCall σ)) : List (Option Str) :=
  (calls.flatMap (received srv)).map (Option.map DirView.name)

theorem Scan.answers {n : ℕ} (hscan : Scan srv fid pattern dir calls) (hne : entries ≠ [])
    (hstart : ∀ c ∈ calls.head?, c.Works srv fid pattern dir entries n)
    (hn : n ≤ entries.length) :
    (∃ k, n + k ≤ entries.length ∧
      namesReceived srv calls = ((entries.drop n).take k).map fun e => some e.name) ∧
    ∀ pre c post, calls = pre ++ c :: post →
      c.Answers srv fid pattern entries (n + (pre.flatMap (received srv)).length) := by
  induction hscan generalizing n with
  | nil dir =>
    refine ⟨⟨0, by omega, by simp [namesReceived]⟩, fun pre c post h => ?_⟩
    exact absurd h (by simp)
  | @cons dir c r cs hon _ ih =>
    have hc := DirCall.answers hon (hstart c rfl) hne hn
    obtain ⟨⟨k, hk, hnames⟩, hrest⟩ := ih (fun c' _ => Or.inl hc.cursor) hc.room
    refine ⟨⟨(c.received srv).length + k, by omega, ?_⟩, fun pre c' post h => ?_⟩
    · -- what is left behind the entries of the first call
      have hsplit : (entries.drop n).take ((c.received srv).length + k) =
          (entries.drop n).take (c.received srv).length ++
            (entries.drop (n + (c.received srv).length)).take k := by
        rw [List.take_add, List.drop_drop]
      have hfirst : (c.received srv).map (Option.map DirView.name) =
          ((entries.drop n).take (c.received srv).length).map fun e => some e.name := by
        conv_lhs => rw [hc.received r hon.req]
        rw [List.map_map]
        rfl
      have hcons : namesReceived srv (c :: cs) =
          (c.received srv).map (Option.map DirView.name) ++ namesReceived srv cs := by
        simp [namesReceived]
      rw [hcons, hsplit, List.map_append, hfirst, hnames]
    · cases pre with
      | nil =>
        obtain ⟨rfl, rfl⟩ := List.cons.inj h
        exact hc
      | cons d pre =>
        obtain ⟨rfl, hcs⟩ := List.cons.inj h
        have := hrest pre c' post hcs
        rwa [Nat.add_assoc, ← List.length_append, ← List.flatMap_cons] at this

/-- **Directory enumeration is complete and exact.**  Over any calls on a directory handle with
one pattern, the client receives an initial segment of the snapshot, in order and each entry once;
and every reply is one of three: the next entries, in data that fits and is chained; that the next
entry does not fit, which moves nothing; or that no entry is left, exactly when all of them have
been delivered. -/
theorem enumeration_exact (hne : entries ≠ []) (hscan : Scan srv fid pattern dir calls)
    (hstart : ∀ c ∈ calls.head?, c.Works srv fid pattern dir entries 0) :
    (∃ k ≤ entries.length,
      namesReceived srv calls = (entries.take k).map fun e => some e.name) ∧
    ∀ pre c post, calls = pre ++ c :: post →
      c.Answers srv fid pattern entries (pre.flatMap (received srv)).length := by
  obtain ⟨⟨k, hk, hnames⟩, hall⟩ := hscan.answers hne hstart (Nat.zero_le _)
  refine ⟨⟨k, by omega, by rwa [List.drop_zero] at hnames⟩, fun pre c post h => ?_⟩
  have := hall pre c post h
  rwa [Nat.zero_add] at this

end

namespace Sample

/-- A directory of two files, of which `n` have been listed. -/
def listed (n : ℕ) : DirState :=
  let info : Meta := ⟨0, 0, 0, 0, 0, 0, 0, 7, 1, false⟩
  ⟨[⟨['a'], info⟩, ⟨['b'], info⟩], n, []⟩

/-- A session with this directory open. -/
def listing (n : ℕ) : Sx Disk where
  sess :=
    { handles := (HandleTable.insert Slab.empty
        { fd := 0, path := [], rel := [], leaf := [], shareIdx := 0, treeId := 1, isDir := true
          writable := false, deleteOnClose := false, dir := some (listed n), oplockIno := none
          leaseKey := none, leaseGranted := 0, serial := 0 }).2 }
  host := (World.start 1 {}).shared.host
  chain := { treeId := 1, transformSid := none }
  notify := {}

/-- QUERY_DIRECTORY for names and file ids. -/
def listReq (flags : UInt8) (outLen : UInt32) : Bytes :=
  zeros 64 ++ p16 33 ++ p8 fileIdBothDirectoryInformation ++ p8 flags ++ p32 0 ++
    putFid firstFid ++ p16 0 ++ p16 0 ++ p32 outLen

def listCall (n : ℕ) (flags : UInt8) (outLen : UInt32) : DirCall Disk :=
  ⟨listing n, ⟨1, cmdQueryDirectory, 0, 0, 0, 5, 1, 2, none⟩, listReq flags outLen⟩

theorem listCall_on (n : ℕ) : (listCall n qdReturnSingle 200).On firstFid [] (some (listed n))
    ⟨fileIdBothDirectoryInformation, qdReturnSingle, firstFid, 200, []⟩ :=
  ⟨rfl, rfl, rfl, rfl, by decide, ⟨_, rfl, rfl, rfl⟩⟩

/-- A client lists the directory one file at a time. -/
theorem enumeration_exact_two :
    (∃ k ≤ 2, namesReceived (srv false false)
        [listCall 0 qdReturnSingle 200, listCall 1 qdReturnSingle 200] =
      ((listed 0).entries.take k).map fun e => some e.name) ∧
    (namesReceived (srv false false)
      [listCall 0 qdReturnSingle 200, listCall 1 qdReturnSingle 200]).length = 2 := by
  have hne : (listed 0).entries ≠ [] := List.cons_ne_nil _ _
  have hlen : ((listCall 0 qdReturnSingle 200).received (srv false false)).length = 1 := by
    decide +kernel
  have hfirst : (listCall 0 qdReturnSingle 200).dirAfter (srv false false) firstFid =
      some ⟨(listed 0).entries, 0 + ((listCall 0 qdReturnSingle 200).received
        (srv false false)).length, []⟩ :=
    (DirCall.answers (listCall_on 0) (Or.inl rfl) hne (Nat.zero_le _)).cursor
  rw [hlen] at hfirst
  have hscan : Scan (srv false false) firstFid [] (some (listed 0))
      [listCall 0 qdReturnSingle 200, listCall 1 qdReturnSingle 200] := by
    refine .cons (listCall_on 0) ?_
    rw [hfirst]
    exact .cons (listCall_on 1) (.nil _)
  exact ⟨(enumeration_exact hne hscan (by rintro c ⟨⟩; exact Or.inl rfl)).1, by decide +kernel⟩

end Sample

end RocketSmbd
