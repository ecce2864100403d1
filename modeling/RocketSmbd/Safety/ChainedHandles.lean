import RocketSmbd.Life.Handles
import RocketSmbd.Smb2.FileIds
import RocketSmbd.Sample

/-!
# The handle of the previous member

In a compound a member may give the all-ones FileId: it means the handle of the CREATE before it.
The code remembers the FileId of the last CREATE that succeeded (`Chain::last_fid`), as a number,
for the rest of the frame: neither an unrelated member nor a CREATE that fails makes it forget.
`chained_handle_iff` says when the handle on which such a member works is the one that the nearest
CREATE of its related run opened.
-/

namespace RocketSmbd

open ByteString Vfs

variable {σ : Type}

/-! ### Related runs -/

/-- The nearest CREATE of a related run; the members are given last first. -/
def runCreate : List (Member σ) → Option (Member σ)
  | [] => none
  | m :: ms =>
    if m.hdr.command = cmdCreate then some m
    else if m.hdr.has flagRelated then runCreate ms
    else none

/-- The nearest CREATE before the member `m` in its related run; `before` are the members of the
compound before it. -/
def Member.opener (before : List (Member σ)) (m : Member σ) : Option (Member σ) :=
  if m.hdr.has flagRelated then runCreate before.reverse else none

/-- The session and the tree in which a member is served. -/
def Member.place (m : Member σ) : UInt64 × UInt32 :=
  ((resolveChain m.hdr m.px.chain).sessionId, (resolveChain m.hdr m.px.chain).treeId)

/-- The state in which the dispatch of a member ends. -/
abbrev Member.done (srv : Srv σ) (m : Member σ) : Px σ := (dispatch srv m.hdr m.msg m.px).1

/-- The member opened a file. -/
def Member.succeeded (srv : Srv σ) (m : Member σ) : Prop :=
  m.px.shared.host.opened < (m.done srv).shared.host.opened

instance (srv : Srv σ) (m : Member σ) : Decidable (m.succeeded srv) :=
  inferInstanceAs (Decidable (_ < _))

/-- The member opened handle number `n`. -/
def Member.opened (srv : Srv σ) (m : Member σ) (n : ℕ) : Prop :=
  m.px.shared.host.opened ≤ n ∧ n < (m.done srv).shared.host.opened

theorem Shared.Names.unique {sh : Shared σ} {sid fid : UInt64} {tree : UInt32} {n n' : ℕ}
    (h : sh.Names sid fid tree n) (h' : sh.Names sid fid tree n') : n = n' := by
  obtain ⟨s, of, hs, hof, rfl⟩ := h
  obtain ⟨s', of', hs', hof', rfl⟩ := h'
  obtain rfl := Option.some.inj (hs.symm.trans hs')
  obtain rfl := Option.some.inj (hof.symm.trans hof')
  rfl

/-- After the members `past`, last first: if the CREATE of the run opened a file, the remembered
FileId means it, or nothing any more, where that CREATE was served. -/
structure Remembers (srv : Srv σ) (past : List (Member σ)) (px : Px σ) : Prop where
  roomy : px.shared.Roomy
  file : ∀ c ∈ runCreate past, c.succeeded srv → ∃ fid, px.chain.lastFid = some fid ∧
    ∀ n, px.shared.Names c.place.1 fid c.place.2 n → c.opened srv n

theorem Remembers.step (srv : Srv σ) {past : List (Member σ)} {m : Member σ}
    (h : Remembers srv past m.px) : Remembers srv (m :: past) (m.done srv) := by
  refine ⟨(dispatch_deeds srv m.hdr m.msg m.px).induct (fun _ _ _ _ hd => hd.roomy) h.roomy, ?_⟩
  intro c hc hsucc
  unfold runCreate at hc
  split_ifs at hc with hcreate hrelated
  · -- the member is the CREATE
    obtain rfl := Option.some.inj hc
    rcases dispatch_created srv m.hdr m.msg m.px hcreate h.roomy with
      ⟨hopened, -⟩ | ⟨fid, n, hlast, hnames, hle, hlt⟩
    · exact absurd hsucc (by rw [Member.succeeded, hopened]; exact lt_irrefl _)
    · refine ⟨fid, hlast, fun n' hn' => ?_⟩
      obtain rfl := hn'.unique hnames
      exact ⟨hle, hlt⟩
  · -- another request keeps the FileId, and lets it mean nothing new
    obtain ⟨fid, hlast, hfile⟩ := h.file c hc hsucc
    refine ⟨fid, (dispatch_lastFid srv m.hdr m.msg m.px hcreate).trans hlast, fun n hn => ?_⟩
    exact hfile n (dispatch_names srv m.hdr m.msg m.px hcreate hn)
  · simp at hc

/-- What a member of a frame finds remembered. -/
theorem frameMembers_remembers (srv : Srv σ) {sh : Shared σ} {pc : ProtoConn} {frame tx : Bytes}
    {pre post : List (Member σ)} {m : Member σ} (hroomy : sh.Roomy)
    (hm : frameMembers srv sh pc frame tx = pre ++ m :: post) :
    Remembers srv pre.reverse m.px := by
  refine frameMembers_past (P := Remembers srv) (fun past frame base w m hat h => ?_)
    (fun past m h => h.step) (fun px hsh _ _ => ⟨hsh ▸ hroomy, fun c hc => ?_⟩) hm
  · have hsh := (memberAt_found hat).shared
    exact ⟨hsh ▸ h.roomy, by rw [hsh, (memberAt_found hat).lastFid]; exact h.file⟩
  · simp [runCreate] at hc

/-! ### The handle on which a member works -/

/-- The handle on which a member that gives the all-ones FileId works is live under the remembered
FileId. -/
theorem Member.worksOn_names (srv : Srv σ) {m : Member σ} {of : OpenFile} (hprev : m.previous)
    (hof : m.worksOn srv = some of) :
    ∃ fid, m.px.chain.lastFid = some fid ∧
      m.px.shared.Names m.place.1 fid m.place.2 of.serial := by
  obtain ⟨off, hoff, hones⟩ := hprev
  unfold Member.worksOn at hof
  split_ifs at hof
  simp only [Px.worksOn, Option.bind_eq_bind, Option.bind_eq_some_iff] at hof
  obtain ⟨sess, hs, tree, htree, ⟨fid, asks⟩, hwanted, of', hget, hsome⟩ := hof
  split_ifs at hsome
  obtain rfl := Option.some.inj hsome
  have hlast := wantedHandle_ones hoff hones hwanted
  rw [resolveChain_lastFid] at hlast
  exact ⟨fid, hlast, sess, of', hs, hget, rfl⟩

/-- The member fails without touching any file, or works on the handle that the nearest CREATE of
its related run opened, in that CREATE's session and tree. -/
def Member.Follows (srv : Srv σ) (before : List (Member σ)) (m : Member σ) : Prop :=
  (m.worksOn srv = none ∧ m.px.Fails (dispatch srv m.hdr m.msg m.px)) ∨
    ∃ of c, m.worksOn srv = some of ∧ m.opener before = some c ∧ c.opened srv of.serial ∧
      c.place = m.place

/-- If the member comes to work on a handle, then its related run has a CREATE, the nearest one
opened a file, and the member is served in the session and tree of that CREATE. -/
def Member.Chained (srv : Srv σ) (before : List (Member σ)) (m : Member σ) : Prop :=
  (m.worksOn srv).isSome →
    ∃ c, m.opener before = some c ∧ c.succeeded srv ∧ c.place = m.place

/-- **The all-ones FileId means the nearest CREATE of the related run exactly if that CREATE
succeeded and was served in the same place.** -/
theorem chained_handle_iff (srv : Srv σ) (workers : ℕ) (os : σ) (es : List Event) (pc : ProtoConn)
    (frame tx : Bytes) (pre post : List (Member σ)) (m : Member σ)
    (hm : frameMembers srv ((World.start workers os).run srv es).shared pc frame tx =
      pre ++ m :: post) (hprev : m.previous) :
    m.Follows srv pre ↔ m.Chained srv pre := by
  have hroomy : ((World.start workers os).run srv es).shared.Roomy :=
    World.run_roomy srv _ es fun sid s hs => by simp [World.start] at hs
  have hremembers := frameMembers_remembers srv hroomy hm
  constructor
  · rintro (⟨hnone, -⟩ | ⟨of, c, -, hc, hopened, hplace⟩) hworks
    · simp [hnone] at hworks
    · exact ⟨c, hc, lt_of_le_of_lt hopened.1 hopened.2, hplace⟩
  · intro hchained
    cases hof : m.worksOn srv with
    | none =>
      obtain ⟨off, hoff, -⟩ := hprev
      exact Or.inl ⟨hof, m.fails srv (by rw [hoff]; rfl) hof⟩
    | some of =>
      obtain ⟨c, hc, hsucc, hplace⟩ := hchained (by rw [hof]; rfl)
      obtain ⟨fid, hlast, hnames⟩ := m.worksOn_names srv hprev hof
      have hrun : c ∈ runCreate pre.reverse := by
        unfold Member.opener at hc
        split_ifs at hc
        exact hc
      obtain ⟨fid', hlast', hfile⟩ := hremembers.file c hrun hsucc
      obtain rfl := Option.some.inj (hlast.symm.trans hlast')
      rw [hplace] at hfile
      exact Or.inr ⟨of, c, hof, hc, hfile _ hnames, hplace⟩

namespace Sample

/-- CREATE of the file `a` and a WRITE to it. -/
def createAndWrite : Bytes :=
  createReq 0 128 3 1 2 fileWriteData fileOpenIf 0 ['a'] [] ++ zeros 6 ++
    writeReq flagRelated 0 4 1 2 previousFid 0 [0x78]

/-- CREATE of the file `a`, then one that does not find the file `b`, and a WRITE to the file of
the second. -/
def staleWrite : Bytes :=
  three (createReq 0 128 3 1 2 fileWriteData fileOpenIf 0 ['a'] [])
    (createReq 0 128 4 1 2 fileWriteData fileOpen 0 ['b'] [])
    (writeReq flagRelated 0 5 1 2 previousFid 0 [0x78])

end Sample

theorem split_at {A : Type} {l : List A} {i : ℕ} {a : A} (h : l[i]? = some a) :
    l = l.take i ++ a :: l.drop (i + 1) := by
  obtain ⟨hi, rfl⟩ := List.getElem?_eq_some_iff.1 h
  rw [← List.drop_eq_getElem_cons hi, List.take_append_drop]

open Sample in
/-- A WRITE to the file of the CREATE before it. -/
theorem chained_handle_iff_write :
    ∃ c ∈ atShare.taker conn createAndWrite,
      ∃ pre m post, frameMembers (srv false false) atShare.shared c.proto createAndWrite c.tx =
        pre ++ m :: post ∧ m.previous ∧ (m.worksOn (srv false false)).isSome ∧
        m.Follows (srv false false) pre := by
  obtain ⟨c, hc, m, hm, hprev, hworks, opener, hopener, hsucc, hplace⟩ :
      ∃ c ∈ atShare.taker conn createAndWrite,
        ∃ m ∈ (frameMembers (srv false false) atShare.shared c.proto createAndWrite c.tx)[1]?,
          m.previous ∧ (m.worksOn (srv false false)).isSome ∧
          ∃ opener ∈ m.opener ((frameMembers (srv false false) atShare.shared c.proto
            createAndWrite c.tx).take 1), opener.succeeded (srv false false) ∧
            opener.place = m.place := by decide +kernel
  have hsplit := split_at hm
  refine ⟨c, hc, _, m, _, hsplit, hprev, hworks, ?_⟩
  exact (chained_handle_iff (srv false false) 1 {} connected c.proto createAndWrite c.tx _ _ m
    hsplit hprev).2 fun _ => ⟨opener, hopener, hsucc, hplace⟩

open Sample in
/-- The WRITE that follows a failed CREATE in its related run stores its data in the file of the
CREATE before that. -/
theorem chained_handle_stale :
    (∃ c ∈ atShare.taker conn staleWrite,
      ∃ pre m post, frameMembers (srv false false) atShare.shared c.proto staleWrite c.tx =
        pre ++ m :: post ∧ m.previous ∧ ¬ m.Follows (srv false false) pre) ∧
    (atShare.step (srv false false) (.frame conn staleWrite)).shared.host.os.inodes =
      [⟨true, []⟩, ⟨false, [0x78]⟩] := by
  obtain ⟨c, hc, m, hm, hprev, hworks, hfailed⟩ :
      ∃ c ∈ atShare.taker conn staleWrite,
        ∃ m ∈ (frameMembers (srv false false) atShare.shared c.proto staleWrite c.tx)[2]?,
          m.previous ∧ (m.worksOn (srv false false)).isSome ∧
          ∀ opener ∈ m.opener ((frameMembers (srv false false) atShare.shared c.proto
            staleWrite c.tx).take 2), ¬ opener.succeeded (srv false false) := by decide +kernel
  refine ⟨⟨c, hc, _, m, _, split_at hm, hprev, ?_⟩, by decide +kernel⟩
  rintro (⟨hnone, -⟩ | ⟨of, opener, -, hopener, hopened, -⟩)
  · simp [hnone] at hworks
  · exact hfailed opener hopener (lt_of_le_of_lt hopened.1 hopened.2)

end RocketSmbd
