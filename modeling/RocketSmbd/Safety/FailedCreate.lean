import RocketSmbd.Safety.FileView
import RocketSmbd.Smb2.Runs

/-!
# CREATE requests that fail

A CREATE looks at its target, may make a directory, opens a file with flags that may create or
truncate it, and then reads the metadata of the descriptor.  `Files` says what is assumed of the
operating system: which results of these calls leave the names and contents of the files.

* `create_run`: what becomes of a request that passes its checks.
* `create_failed_iff`: when a CREATE that fails leaves everything as it was.
-/

namespace RocketSmbd

open ByteString Vfs

variable {σ V : Type}

/-- An open with these flags creates the file, if it is `missing`, or truncates it, if it is not
empty. -/
def OpenFlags.Alters (flags : OpenFlags) (missing full : Prop) : Prop :=
  (flags.creat = true ∧ missing) ∨ (flags.trunc = true ∧ full)

/-- What is assumed of the system.  `mkdir` changes the files unless it fails.  An open that fails
leaves them; one that succeeds leaves them exactly if its flags had nothing to create or truncate
at the path, and afterwards they have not. -/
structure Files (env : Env σ) (V : Type) extends FileView env V where
  /-- There is nothing at the path. -/
  missing : V → Path → Prop
  /-- The file at the path is not empty. -/
  full : V → Path → Prop
  mkdir : ∀ p mode s, files (env.os.mkdir p mode s).2 = files s ↔
    ∃ e, (env.os.mkdir p mode s).1 = .error e
  openError : ∀ p flags mode s e t, env.os.openFile p flags mode s = (.error e, t) →
    files t = files s
  openOk : ∀ p flags mode s fd t, env.os.openFile p flags mode s = (.ok fd, t) →
    (files t = files s ↔ ¬ flags.Alters (missing (files s) p) (full (files s) p)) ∧
      ¬ flags.Alters (missing (files t) p) (full (files t) p)

/-- `open(2)` is called and succeeds; what `openRaw` does after it may still fail. -/
def Opens (os : Os σ) (p : Path) (flags : OpenFlags) (mode : ℕ) (s : σ) : Prop :=
  cpathOk p = true ∧ ∃ fd, (os.openFile p flags mode s).1 = .ok fd

namespace Files

variable {env : Env σ} (F : Files env V)

/-- There is something to create or to truncate for an open. -/
def Alters (p : Path) (flags : OpenFlags) (s : σ) : Prop :=
  flags.Alters (F.missing (F.files s) p) (F.full (F.files s) p)

theorem alters_congr {p : Path} {flags : OpenFlags} {s t : σ} (h : F.files t = F.files s) :
    F.Alters p flags t ↔ F.Alters p flags s := by
  unfold Alters
  rw [h]

theorem statMeta (p : Path) : Eff.Keeps F.Same (Vfs.statMeta env.os p) :=
  .bind (fun s => F.look (.stat p s)) fun _ => .ret _

theorem fstatMeta (fd : Fd) : Eff.Keeps F.Same (Vfs.fstatMeta env.os fd) :=
  .bind (fun s => F.look (.fstat fd s)) fun _ => .ret _

theorem openedOk (fd : Fd) : Eff.Keeps F.Same (Vfs.openedOk env.os fd) :=
  .bind (fun s => F.look (.fstat fd s)) fun _ => .bind (.refuse _ _) fun _ s =>
    F.look (.clearNonblock fd s)

section

variable (p : Path) (flags : OpenFlags) (mode : ℕ) (s : σ)

/-- `openRaw` changes the files exactly if there is something to create or truncate and `open(2)`
succeeds; then there is nothing left. -/
theorem openRaw :
    (F.Same s (Vfs.openRaw env.os p flags mode s).2 ↔
      ¬ (F.Alters p flags s ∧ Opens env.os p flags mode s)) ∧
    (Opens env.os p flags mode s → ¬ F.Alters p flags (Vfs.openRaw env.os p flags mode s).2) := by
  unfold Vfs.openRaw Eff.refuse
  by_cases hpath : cpathOk p = true
  swap
  · rw [if_pos hpath]
    exact ⟨iff_of_true rfl fun ho => hpath ho.2.1, fun ho => absurd ho.1 hpath⟩
  rw [if_neg (not_not.2 hpath), Eff.bind_run_ok (Eff.pure_run () s)]
  cases h : env.os.openFile p flags mode s with
  | mk r o =>
    cases r with
    | error e =>
      rw [Eff.bind_run_error h]
      have hno : ¬ Opens env.os p flags mode s := fun ⟨_, fd, hfd⟩ =>
        absurd (hfd.symm.trans (congrArg Prod.fst h)) (by simp)
      exact ⟨iff_of_true (F.openError p flags mode s e o h) fun ho => hno ho.2,
        fun ho => absurd ho hno⟩
    | ok fd =>
      have ho : Opens env.os p flags mode s := ⟨hpath, fd, congrArg Prod.fst h⟩
      rw [Eff.bind_run_ok h, and_iff_left ho]
      obtain ⟨hsame, hnot⟩ := F.openOk p flags mode s fd o h
      have hafter {m : Eff σ ℕ Fd} (hm : Eff.Keeps F.Same m) :
          (F.Same s (m o).2 ↔ ¬ F.Alters p flags s) ∧
            (Opens env.os p flags mode s → ¬ F.Alters p flags (m o).2) :=
        ⟨(Eq.congr_left (hm o)).trans hsame, fun _ => mt (F.alters_congr (hm o)).1 hnot⟩
      -- the rest only looks, and closes the descriptor
      refine hafter (.bind (.attempt (F.openedOk fd)) fun r => ?_)
      cases r with
      | ok => exact .ret fd
      | error e => exact .bind (.update _ fun s => F.aside (.close fd s)) fun _ => .fail e

theorem openRaw_plain (hcreat : flags.creat = false) (htrunc : flags.trunc = false) :
    F.Same s (Vfs.openRaw env.os p flags mode s).2 :=
  (F.openRaw p flags mode s).1.2 (by simp [Alters, OpenFlags.Alters, hcreat, htrunc])

end

end Files

/-! ### The calls of a CREATE -/

/-- The handler `m` makes the calls `k`. -/
def Calls (m : Handler σ Opened) (k : Eff σ ℕ Fd) : Prop :=
  ∀ s, match k s.host.os with
    | (.ok fd, o) => ∃ w : Opened, w.fd = fd ∧ m s = (.ok w, s.onOs o)
    | (.error e, o) => m s = (.error (Status.fromErrno e), s.onOs o)

/-- Open an existing directory. -/
def openDir (os : Os σ) (path : Path) : Eff σ ℕ Fd := openRaw os path { directory := true } 0

/-- Make a directory and open it. -/
def makeDir (os : Os σ) (path : Path) : Eff σ ℕ Fd := do
  Vfs.mkdir os path 0o755
  openDir os path

/-- Write access is tried. -/
def CreateReq.tryRw (req : CreateReq) (readOnly : Bool) : Bool :=
  req.wantsWrite ∨ (req.desired &&& maximumAllowed ≠ 0 ∧ ¬ readOnly) ∨ req.creates

/-- The flags of an open. -/
def CreateReq.flags (req : CreateReq) (rdwr : Bool) : OpenFlags :=
  { dispositionFlags req.disposition with rdwr }

section

variable (os : Os σ) (req : CreateReq) (path : Path) (readOnly : Bool)

/-- The first open of a file. -/
def firstOpen : Eff σ ℕ Fd := openRaw os path (req.flags (req.tryRw readOnly)) 0o644

/-- Open a file, and again without write access where that was only tried. -/
def openFile : Eff σ ℕ Fd := fun s =>
  match firstOpen os req path readOnly s with
  | (.ok fd, o) => (.ok fd, o)
  | (.error e, o) =>
    if e = Errno.eacces ∧ req.tryRw readOnly ∧ ¬ req.wantsWrite then
      openRaw os path (req.flags false) 0 o
    else (.error e, o)

variable (s : σ)

/-- The file is opened a second time. -/
def Retries : Prop :=
  (firstOpen os req path readOnly s).1 = .error Errno.eacces ∧ req.tryRw readOnly = true ∧
    ¬ req.wantsWrite = true

variable {os req path readOnly s}

theorem openFile_second (h : Retries os req path readOnly s) : openFile os req path readOnly s =
    openRaw os path (req.flags false) 0 (firstOpen os req path readOnly s).2 := by
  unfold openFile
  unfold Retries at h
  generalize firstOpen os req path readOnly s = r at h ⊢
  obtain ⟨e | fd, o⟩ := r
  · exact if_pos ⟨Except.error.inj h.1, h.2⟩
  · exact absurd h.1 (by simp)

theorem openFile_first (h : ¬ Retries os req path readOnly s) :
    openFile os req path readOnly s = firstOpen os req path readOnly s := by
  unfold openFile
  unfold Retries at h
  generalize firstOpen os req path readOnly s = r at h ⊢
  obtain ⟨e | fd, o⟩ := r
  · exact if_neg fun hre => h ⟨congrArg Except.error hre.1, hre.2⟩
  · rfl

variable (os req path readOnly s)

/-- One of the `open(2)` calls for a file succeeds. -/
def FileOpens : Prop :=
  Opens os path (req.flags (req.tryRw readOnly)) 0o644 s ∨
    (Retries os req path readOnly s ∧
      Opens os path (req.flags false) 0 (firstOpen os req path readOnly s).2)

end

/-- One call whose descriptor is kept. -/
theorem Calls.sys (k : Eff σ ℕ Fd) {w : Fd → Opened} (hw : ∀ fd, (w fd).fd = fd) :
    Calls (do let fd ← Handler.sys k; pure (w fd)) k := by
  intro s
  cases h : k s.host.os with
  | mk r o =>
    cases r with
    | ok fd => exact ⟨w fd, hw fd, by rw [Eff.bind_run_ok (sys_run_ok h)]; rfl⟩
    | error e => exact Eff.bind_run_error (sys_run_error h)

/-- A call before the others. -/
theorem Calls.after {A : Type} (n : Eff σ ℕ A) {m : Handler σ Opened} {k : Eff σ ℕ Fd}
    (h : Calls m k) : Calls (do let _ ← Handler.sys n; m) (do let _ ← n; k) := by
  intro s
  cases hn : n s.host.os with
  | mk r o =>
    cases r with
    | ok a =>
      rw [Eff.bind_run_ok hn, Eff.bind_run_ok (sys_run_ok hn)]
      exact h (s.onOs o)
    | error e =>
      rw [Eff.bind_run_error hn]
      exact Eff.bind_run_error (sys_run_error hn)

theorem openDirectory_true (os : Os σ) (path : Path) :
    Calls (openDirectory os path true) (openDir os path) := Calls.sys _ fun _ => rfl

theorem openDirectory_false (os : Os σ) (path : Path) :
    Calls (openDirectory os path false) (makeDir os path) := by
  have heq : openDirectory os path false = (do
      Handler.sys (Vfs.mkdir os path 0o755)
      let fd ← Handler.sys (openDir os path)
      pure ⟨fd, true, false, createActionCreated⟩ : Handler σ Opened) := by
    funext s
    unfold openDirectory
    rw [if_neg (by decide), Eff.bind_run, Eff.bind_run, Eff.bind_run]
    rcases Handler.sys (Vfs.mkdir os path 0o755) s with ⟨_ | _, _⟩ <;> rfl
  rw [heq]
  exact Calls.after _ (Calls.sys _ fun _ => rfl)

theorem openRegular_calls (os : Os σ) (req : CreateReq) (path : Path) (readOnly exist : Bool) :
    Calls (openRegular os req path readOnly exist) (openFile os req path readOnly) := by
  intro s
  unfold openRegular openFile firstOpen CreateReq.flags CreateReq.tryRw
  dsimp only
  generalize dispositionFlags req.disposition = flags
  generalize decide (req.wantsWrite = true ∨ (req.desired &&& maximumAllowed ≠ 0 ∧
    ¬ readOnly = true) ∨ req.creates = true) = tryRw
  rw [Eff.bind_run_ok (trySys_run _ s)]
  rcases openRaw os path { flags with rdwr := tryRw } 0o644 s.host.os with ⟨e | fd, o⟩
  · dsimp only
    split_ifs
    · exact Calls.sys (openRaw os path { flags with rdwr := false } 0) (fun _ => rfl) (s.onOs o)
    · rfl
  · exact ⟨_, rfl, rfl⟩

namespace Files

variable {env : Env σ} (F : Files env V)

theorem mkdir_same (p : Path) (mode : ℕ) (s : σ) :
    F.files (Vfs.mkdir env.os p mode s).2 = F.files s ↔
      ¬ (Vfs.mkdir env.os p mode s).1 = .ok () := by
  by_cases hpath : ¬ cpathOk p = true
  · have hrun : Vfs.mkdir env.os p mode s = (.error Errno.einval, s) := by
      unfold Vfs.mkdir Eff.refuse
      rw [if_pos hpath]
      rfl
    rw [hrun]
    exact iff_of_true rfl nofun
  · have hrun : Vfs.mkdir env.os p mode s = env.os.mkdir p mode s := by
      unfold Vfs.mkdir Eff.refuse
      rw [if_neg hpath]
      rfl
    rw [hrun, F.mkdir]
    cases (env.os.mkdir p mode s).1 with
    | ok u => exact iff_of_false nofun (not_not.2 rfl)
    | error e => exact iff_of_true ⟨e, rfl⟩ nofun

/-- Opening a new directory does not change the files again. -/
theorem makeDir (p : Path) (s : σ) :
    F.files (RocketSmbd.makeDir env.os p s).2 = F.files (Vfs.mkdir env.os p 0o755 s).2 := by
  unfold RocketSmbd.makeDir
  rw [Eff.bind_run]
  rcases Vfs.mkdir env.os p 0o755 s with ⟨e | u, o⟩
  · rfl
  · exact F.openRaw_plain p _ 0 o rfl rfl

/-- The opens of a file change the files exactly if there was something to create or truncate, and
one of them succeeds. -/
theorem openFile (req : CreateReq) (p : Path) (readOnly : Bool) (s : σ) :
    F.Same s (RocketSmbd.openFile env.os req p readOnly s).2 ↔
      ¬ (F.Alters p (dispositionFlags req.disposition) s ∧ FileOpens env.os req p readOnly s) := by
  have hflags : ∀ rdwr t, F.Alters p (req.flags rdwr) t ↔
      F.Alters p (dispositionFlags req.disposition) t := fun _ _ => Iff.rfl
  obtain ⟨hfirst, hclear⟩ := F.openRaw p (req.flags (req.tryRw readOnly)) 0o644 s
  rw [hflags] at hfirst hclear
  by_cases hre : Retries env.os req p readOnly s
  · have hsecond := (F.openRaw p (req.flags false) 0 (firstOpen env.os req p readOnly s).2).1
    rw [hflags] at hsecond
    rw [openFile_second hre]
    by_cases ho : Opens env.os p (req.flags (req.tryRw readOnly)) 0o644 s
    · -- the first open has left nothing to do for the second
      have hlast := hsecond.2 fun h => hclear ho h.1
      rw [and_iff_left (show FileOpens env.os req p readOnly s from Or.inl ho)]
      rw [and_iff_left ho] at hfirst
      exact (Eq.congr_left hlast).trans hfirst
    · have hsame := hfirst.2 fun h => ho h.2
      have hopens : FileOpens env.os req p readOnly s ↔
          Opens env.os p (req.flags false) 0 (firstOpen env.os req p readOnly s).2 := by
        simp only [FileOpens, ho, hre, false_or, true_and]
      rw [hopens, ← F.alters_congr hsame]
      exact (Eq.congr_right hsame.symm).trans hsecond
  · rw [openFile_first hre]
    have hopens : FileOpens env.os req p readOnly s ↔
        Opens env.os p (req.flags (req.tryRw readOnly)) 0o644 s := by
      simp only [FileOpens, hre, false_and, or_false]
    rw [hopens]
    exact hfirst

end Files

/-- There is something at the path. -/
def found : Except ℕ Meta → Bool
  | .ok _ => true
  | .error _ => false

/-- There is a directory at the path. -/
def foundDir : Except ℕ Meta → Bool
  | .ok m => m.isDir
  | .error _ => false

theorem found_of_foundDir {existing : Except ℕ Meta} (h : foundDir existing = true) :
    found existing = true := by
  cases existing with
  | ok m => rfl
  | error e => exact absurd h Bool.false_ne_true

/-- The calls that open the target, by what was found at the path. -/
def targetCalls (os : Os σ) (req : CreateReq) (path : Path) (readOnly : Bool)
    (existing : Except ℕ Meta) : Eff σ ℕ Fd :=
  if foundDir existing then openDir os path
  else if req.dirRequested ∧ ¬ found existing then makeDir os path
  else openFile os req path readOnly

/-- The target is looked at and opened. -/
def openTarget (os : Os σ) (req : CreateReq) (path : Path) (readOnly : Bool) (s : σ) :
    Except ℕ Fd × σ :=
  targetCalls os req path readOnly (statMeta os path s).1 (statMeta os path s).2

/-- The request passes the checks of a CREATE. -/
def CreateReq.Passes (os : Os σ) (req : CreateReq) (path : Path) (rel : Str) (readOnly : Bool)
    (s : Sx σ) : Prop :=
  (createAllowed req readOnly s).1 = .ok () ∧
    (createMatches req rel readOnly (found (statMeta os path s.host.os).1)
      (foundDir (statMeta os path s.host.os).1) s).1 = .ok ()

theorem createAllowed_state (req : CreateReq) (readOnly : Bool) (s : Sx σ) :
    (createAllowed req readOnly s).2 = s := by
  have hpeek : Eff.Peeks (fun _ => True) (createAllowed req readOnly) s fun _ => True :=
    .bind .read fun _ _ => .bind (.refuse trivial _) fun _ _ =>
      (Eff.Peeks.refuse trivial _).imp_right fun ⟨a, _, h⟩ => ⟨a, trivial, h⟩
  rcases hpeek with ⟨e, -, h⟩ | ⟨a, -, h⟩ <;> rw [h]

theorem createMatches_decides (req : CreateReq) (rel : Str) (readOnly exist existingDir : Bool) :
    ∃ r, Eff.Decides (createMatches req rel readOnly exist existingDir : Handler σ Unit) r := by
  have hrefuse : ∀ (c : Prop) [Decidable c] (e : UInt32),
      ∃ r, Eff.Decides (Eff.refuse c e : Handler σ Unit) r := fun c _ e => ⟨_, .refuse c e⟩
  refine Eff.Decides.bind (hrefuse _ _) fun _ => Eff.Decides.bind (hrefuse _ _) fun _ => ?_
  refine Eff.Decides.bind (hrefuse _ _) fun _ => Eff.Decides.bind (hrefuse _ _) fun _ => ?_
  exact Eff.Decides.bind (hrefuse _ _) fun _ => hrefuse _ _

/-- `createOpen` after its first check. -/
theorem createOpen_eq (os : Os σ) (req : CreateReq) (path : Path) (rel : Str) (readOnly : Bool)
    {s : Sx σ} (h : (createAllowed req readOnly s).1 = .ok ()) :
    createOpen os req path rel readOnly s =
      (do
        createMatches req rel readOnly (found (statMeta os path s.host.os).1)
          (foundDir (statMeta os path s.host.os).1)
        if foundDir (statMeta os path s.host.os).1 ∨
            (req.dirRequested ∧ ¬ found (statMeta os path s.host.os).1) then
          openDirectory os path (found (statMeta os path s.host.os).1)
        else openRegular os req path readOnly (found (statMeta os path s.host.os).1) :
        Handler σ Opened) (s.onOs (statMeta os path s.host.os).2) := by
  have hrun : createAllowed req readOnly s = (.ok (), s) :=
    Prod.ext h (createAllowed_state req readOnly s)
  unfold createOpen
  rw [Eff.bind_run_ok hrun, Eff.bind_run_ok (trySys_run _ s)]
  rcases (statMeta os path s.host.os).1 with _ | _ <;> rfl

section

variable {os : Os σ} {req : CreateReq} {path : Path} {rel : Str} {readOnly : Bool} {s : Sx σ}

/-- A request that passes its checks makes the calls of its target. -/
theorem createOpen_passes (h : req.Passes os path rel readOnly s) :
    ∃ m, Calls m (targetCalls os req path readOnly (statMeta os path s.host.os).1) ∧
      createOpen os req path rel readOnly s = m (s.onOs (statMeta os path s.host.os).2) := by
  rw [createOpen_eq os req path rel readOnly h.1]
  have hmatches := h.2
  generalize (statMeta os path s.host.os).1 = existing at hmatches ⊢
  obtain ⟨r, hr⟩ := @createMatches_decides σ req rel readOnly (found existing) (foundDir existing)
  rw [hr s] at hmatches
  obtain rfl : r = .ok () := hmatches
  rw [Eff.bind_run_ok (hr _)]
  unfold targetCalls
  by_cases hdir : foundDir existing = true
  · rw [if_pos hdir, if_pos (Or.inl hdir), found_of_foundDir hdir]
    exact ⟨_, openDirectory_true os path, rfl⟩
  · by_cases hreq : req.dirRequested = true ∧ ¬ found existing = true
    · rw [if_neg hdir, if_pos hreq, if_pos (Or.inr hreq), Bool.eq_false_iff.2 hreq.2]
      exact ⟨_, openDirectory_false os path, rfl⟩
    · rw [if_neg hdir, if_neg hreq, if_neg (not_or.2 ⟨hdir, hreq⟩)]
      exact ⟨_, openRegular_calls os req path readOnly _, rfl⟩

/-- A request that does not pass its checks ends with them. -/
theorem createOpen_refused (h : ¬ req.Passes os path rel readOnly s) :
    ∃ e o, createOpen os req path rel readOnly s = (.error e, s.onOs o) ∧
      (o = s.host.os ∨ o = (statMeta os path s.host.os).2) := by
  cases hallowed : (createAllowed req readOnly s).1 with
  | error e =>
    have hrun : createAllowed req readOnly s = (.error e, s) :=
      Prod.ext hallowed (createAllowed_state req readOnly s)
    exact ⟨e, s.host.os, Eff.bind_run_error hrun, Or.inl rfl⟩
  | ok =>
    rw [createOpen_eq os req path rel readOnly hallowed]
    obtain ⟨r, hr⟩ := @createMatches_decides σ req rel readOnly
      (found (statMeta os path s.host.os).1) (foundDir (statMeta os path s.host.os).1)
    cases r with
    | ok => exact absurd ⟨hallowed, congrArg Prod.fst (hr s)⟩ h
    | error e => exact ⟨e, _, Eff.bind_run_error (hr _), Or.inr rfl⟩

end

/-! ### The whole request -/

/-- The metadata of the descriptor can be read. -/
def Described (os : Os σ) (r : Except ℕ Fd × σ) : Prop :=
  ∃ fd m, r.1 = .ok fd ∧ (fstatMeta os fd r.2).1 = .ok m

theorem openedMeta_ok {os : Os σ} {fd : Fd} {s : Sx σ} {m : Meta} {o : σ}
    (h : fstatMeta os fd s.host.os = (.ok m, o)) : openedMeta os fd s = (.ok m, s.onOs o) := by
  unfold openedMeta
  rw [Eff.bind_run_ok (trySys_run _ s), h]
  rfl

theorem openedMeta_error {os : Os σ} {fd : Fd} {s : Sx σ} {e : ℕ} {o : σ}
    (h : fstatMeta os fd s.host.os = (.error e, o)) :
    openedMeta os fd s = (.error (Status.fromErrno e), s.onOs (os.close fd o)) := by
  unfold openedMeta
  rw [Eff.bind_run_ok (trySys_run _ s), h]
  rfl

section

variable {srv : Srv σ} {msg : Bytes} {share : ShareCfg} {tree : Tree} {req : CreateReq}
  {path : Path} {rel : Str} (cid : ℕ × ℕ × UInt16) (allowOplock : Bool)

section

variable (hreq : parseCreate msg = some req) (hpath : resolve share.path req.name = .ok (path, rel))
include hreq hpath

/-- `create` is `createOpen` and what follows, which fails only if the metadata of the descriptor
cannot be read. -/
theorem create_open (s : Sx σ) :
    ∃ k : Opened → Handler σ Body,
      create srv msg share tree cid allowOplock s =
        (createOpen srv.env.os req path rel tree.readOnly >>= k) s ∧
      (∀ w t m o, fstatMeta srv.env.os w.fd t.host.os = (.ok m, o) →
        ∃ b t', k w t = (.ok b, t')) ∧
      ∀ w t e o, fstatMeta srv.env.os w.fd t.host.os = (.error e, o) →
        k w t = (.error (Status.fromErrno e), t.onOs (srv.env.os.close w.fd o)) := by
  have hresolve : (Eff.ofExcept (resolve share.path req.name) : Handler σ (Path × Str)) s =
      (.ok (path, rel), s) := by
    rw [hpath]
    rfl
  unfold create
  rw [Eff.bind_run_ok (need_run hreq s), Eff.bind_run_ok hresolve]
  refine ⟨_, rfl, fun w t m o hstat => ?_, fun w t e o hstat => ?_⟩
  · rw [Eff.bind_run_ok (openedMeta_ok hstat)]
    split_ifs <;> exact ⟨_, _, rfl⟩
  · exact Eff.bind_run_error (openedMeta_error hstat)

/-- A request that passes its checks: it succeeds if the target is opened and its metadata read,
and otherwise fails with what the calls have done so far. -/
theorem create_run {s : Sx σ}
    (hpass : req.Passes srv.env.os path rel tree.readOnly s) {r : Except ℕ Fd × σ}
    (hr : openTarget srv.env.os req path tree.readOnly s.host.os = r) :
    (Described srv.env.os r → ∃ b t, create srv msg share tree cid allowOplock s = (.ok b, t)) ∧
    (¬ Described srv.env.os r → ∃ e o, create srv msg share tree cid allowOplock s =
      (.error e, s.onOs o) ∧ (o = r.2 ∨ ∃ fd, o = srv.env.os.close fd
        (fstatMeta srv.env.os fd r.2).2)) := by
  obtain ⟨k, hcreate, hok, herror⟩ := @create_open σ srv msg share tree req path rel cid
    allowOplock hreq hpath s
  obtain ⟨m, hm, hopen⟩ := createOpen_passes hpass
  have hcalls := hm (s.onOs (statMeta srv.env.os path s.host.os).2)
  have hr' : targetCalls srv.env.os req path tree.readOnly
      (statMeta srv.env.os path s.host.os).1
      (s.onOs (statMeta srv.env.os path s.host.os).2).host.os = r := hr
  rw [hr'] at hcalls
  rw [hcreate]
  obtain ⟨e | fd, o⟩ := r
  · constructor
    · rintro ⟨fd, m, hfd, -⟩
      exact nomatch hfd
    · intro _
      exact ⟨_, o, Eff.bind_run_error (hopen.trans hcalls), Or.inl rfl⟩
  · obtain ⟨w, rfl, hw⟩ := hcalls
    rw [Eff.bind_run_ok (hopen.trans hw)]
    cases hstat : fstatMeta srv.env.os w.fd o with
    | mk r' o' =>
      cases r' with
      | ok m =>
        refine ⟨fun _ => hok w (s.onOs o) m o' hstat, fun hnot => absurd ?_ hnot⟩
        exact ⟨w.fd, m, rfl, congrArg Prod.fst hstat⟩
      | error e =>
        constructor
        · rintro ⟨fd, m, hfd, hm⟩
          obtain rfl := Except.ok.inj hfd
          exact nomatch (congrArg Prod.fst hstat).symm.trans hm
        · intro _
          exact ⟨_, _, herror w (s.onOs o) e o' hstat, Or.inr ⟨w.fd, by rw [hstat]⟩⟩

end

/-- A request that is not understood or does not pass its checks does nothing. -/
theorem create_refused (F : Files srv.env V) (s : Sx σ)
    (h : ∀ req path rel, parseCreate msg = some req →
      resolve share.path req.name = .ok (path, rel) →
      ¬ req.Passes srv.env.os path rel tree.readOnly s) :
    ∃ e o, create srv msg share tree cid allowOplock s = (.error e, s.onOs o) ∧
      F.files o = F.files s.host.os := by
  cases hreq : parseCreate msg with
  | none =>
    refine ⟨Status.invalidParameter, s.host.os, ?_, rfl⟩
    unfold create
    rw [hreq]
    rfl
  | some req =>
    cases hpath : resolve share.path req.name with
    | error e =>
      refine ⟨e, s.host.os, ?_, rfl⟩
      unfold create
      rw [Eff.bind_run_ok (need_run hreq s), hpath]
      rfl
    | ok p =>
      obtain ⟨path, rel⟩ := p
      obtain ⟨k, hcreate, -, -⟩ := @create_open σ srv msg share tree req path rel cid allowOplock
        hreq hpath s
      obtain ⟨e, o, hopen, ho⟩ := createOpen_refused (h req path rel hreq hpath)
      refine ⟨e, o, hcreate.trans (Eff.bind_run_error hopen), ?_⟩
      rcases ho with rfl | rfl
      · rfl
      · exact F.statMeta path s.host.os

/-- Where a directory is made, it is opened and its metadata read.  Where a file is missing that the
flags create, or has contents that they truncate, and an `open(2)` of it succeeds, the last open
succeeds with its checks and the metadata is read. -/
def Firm {env : Env σ} (F : Files env V) (req : CreateReq) (path : Path) (readOnly : Bool) (s : σ) :
    Prop :=
  let r := statMeta env.os path s
  if foundDir r.1 then True
  else if req.dirRequested ∧ ¬ found r.1 then
    (Vfs.mkdir env.os path 0o755 r.2).1 = .ok () → Described env.os (makeDir env.os path r.2)
  else
    F.Alters path (dispositionFlags req.disposition) s → FileOpens env.os req path readOnly r.2 →
      Described env.os (openFile env.os req path readOnly r.2)

/-- The condition in terms of what the calls have done. -/
theorem firm_iff {env : Env σ} (F : Files env V) (req : CreateReq) (path : Path) (readOnly : Bool)
    (s : σ) :
    Firm F req path readOnly s ↔ Described env.os (openTarget env.os req path readOnly s) ∨
      F.Same s (openTarget env.os req path readOnly s).2 := by
  have hstat : F.Same s (statMeta env.os path s).2 := F.statMeta path s
  unfold Firm openTarget targetCalls
  dsimp only
  split_ifs
  · exact iff_of_true trivial (Or.inr ((F.openRaw_plain path _ 0 _ rfl rfl).trans hstat))
  · rw [or_comm, or_iff_not_imp_left, FileView.Same, F.makeDir, ← hstat, F.mkdir_same]
    exact imp_congr_left not_not.symm
  · rw [or_comm, or_iff_not_imp_left, FileView.Same, ← hstat, ← and_imp]
    have hopen := F.openFile req path readOnly (statMeta env.os path s).2
    rw [F.alters_congr hstat] at hopen
    exact imp_congr_left (not_iff_comm.1 hopen.symm).symm

/-- **Failed CREATEs.**  Whatever the system calls return, a CREATE that fails leaves the handles
of the session and the leases as they were.  It leaves the names and contents of the files too, if
and only if the calls after a `mkdir` that succeeds do not fail, and those after an `open(2)` that
succeeds where there was a file to create or to truncate. -/
theorem create_failed_iff (F : Files srv.env V) (s : Sx σ) :
    (∀ e s', create srv msg share tree cid allowOplock s = (.error e, s') →
      s'.sess.handles = s.sess.handles ∧ s'.host.leases = s.host.leases) ∧
    ((∀ e s', create srv msg share tree cid allowOplock s = (.error e, s') →
        F.files s'.host.os = F.files s.host.os) ↔
      ∀ req path rel, parseCreate msg = some req →
        resolve share.path req.name = .ok (path, rel) →
        req.Passes srv.env.os path rel tree.readOnly s →
        Firm F req path tree.readOnly s.host.os) := by
  by_cases hpass : ∃ req path rel, parseCreate msg = some req ∧
      resolve share.path req.name = .ok (path, rel) ∧
      req.Passes srv.env.os path rel tree.readOnly s
  · obtain ⟨req, path, rel, hreq, hpath, hpass⟩ := hpass
    obtain ⟨hok, herror⟩ := @create_run σ srv msg share tree req path rel cid allowOplock hreq
      hpath s hpass _ rfl
    have honly : (∀ req path rel, parseCreate msg = some req →
        resolve share.path req.name = .ok (path, rel) →
        req.Passes srv.env.os path rel tree.readOnly s →
        Firm F req path tree.readOnly s.host.os) ↔ Firm F req path tree.readOnly s.host.os := by
      refine ⟨fun h => h req path rel hreq hpath hpass, fun h req' path' rel' hreq' hpath' _ => ?_⟩
      obtain rfl := Option.some.inj (hreq.symm.trans hreq')
      obtain ⟨rfl, rfl⟩ := Prod.mk.inj (Except.ok.inj (hpath.symm.trans hpath'))
      exact h
    rw [honly, firm_iff]
    by_cases hdesc : Described srv.env.os (openTarget srv.env.os req path tree.readOnly s.host.os)
    · -- the request succeeds
      obtain ⟨b, t, hrun⟩ := hok hdesc
      have hnot : ∀ e s', create srv msg share tree cid allowOplock s ≠ (.error e, s') := by
        intro e s' h
        rw [hrun] at h
        exact nomatch congrArg Prod.fst h
      exact ⟨fun e s' h => absurd h (hnot e s'),
        iff_of_true (fun e s' h => absurd h (hnot e s')) (Or.inl hdesc)⟩
    · obtain ⟨e, o, hrun, ho⟩ := herror hdesc
      have hfiles : F.Same (openTarget srv.env.os req path tree.readOnly s.host.os).2 o := by
        rcases ho with rfl | ⟨fd, rfl⟩
        · rfl
        · exact (F.aside (.close fd _)).trans (F.fstatMeta fd _)
      rw [hrun]
      refine ⟨?_, fun h => Or.inr (hfiles.symm.trans (h e _ rfl)), fun h e' s' heq => ?_⟩
      · rintro e' s' heq
        obtain ⟨-, rfl⟩ := Prod.mk.inj heq
        exact ⟨rfl, rfl⟩
      · obtain ⟨-, rfl⟩ := Prod.mk.inj heq
        exact hfiles.trans (h.resolve_left hdesc)
  · have hnone : ∀ req path rel, parseCreate msg = some req →
        resolve share.path req.name = .ok (path, rel) →
        ¬ req.Passes srv.env.os path rel tree.readOnly s :=
      fun req path rel hreq hpath h => hpass ⟨req, path, rel, hreq, hpath, h⟩
    obtain ⟨e, o, hrun, hfiles⟩ := create_refused cid allowOplock F s hnone
    rw [hrun]
    refine ⟨?_, iff_of_true ?_ fun req path rel hreq hpath h =>
      absurd h (hnone req path rel hreq hpath)⟩
    · rintro e' s' heq
      obtain ⟨-, rfl⟩ := Prod.mk.inj heq
      exact ⟨rfl, rfl⟩
    · rintro e' s' heq
      obtain ⟨-, rfl⟩ := Prod.mk.inj heq
      exact hfiles

end

/-! ### A directory that is left behind -/

namespace Sample

/-- The `open(2)` of a system with one descriptor. -/
def scarceOpen (p : Path) (flags : OpenFlags) (mode : ℕ) : Eff Disk ℕ Fd := fun d =>
  if d.fds = [] then os.openFile p flags mode d else (.error Errno.emfile, d)

/-- The server on that system. -/
def fullSrv : Srv Disk := { srv false false with env := opening scarceOpen }

/-- A name without an entry. -/
def Disk.Missing (v : List Inode × List (Path × ℕ)) (p : Path) : Prop := v.2.lookup p = none

/-- A name whose inode has data. -/
def Disk.Full (v : List Inode × List (Path × ℕ)) (p : Path) : Prop :=
  ∃ ino i, v.2.lookup p = some ino ∧ v.1[ino]? = some i ∧ i.data ≠ []

/-- An inode is emptied. -/
theorem modify_data_eq_self (l : List Inode) (ino : ℕ) :
    (l.modify ino fun i => { i with data := [] }) = l ↔ ∀ i, l[ino]? = some i → i.data = [] := by
  constructor
  · intro h i hi
    have hino := congrArg (·[ino]?) h
    simp only [List.getElem?_modify_eq, hi, Option.map_eq_map, Option.map_some,
      Option.some.injEq] at hino
    exact (congrArg Inode.data hino).symm
  · intro h
    refine List.ext_getElem? fun k => ?_
    rw [List.getElem?_modify]
    cases hk : l[k]? with
    | none => rfl
    | some i =>
      rw [Option.map_eq_map, Option.map_some]
      split_ifs with hino
      · rw [← h i (hino ▸ hk)]
      · rfl

theorem Disk.openFile_error {d d' : Disk} {p : Path} {flags : OpenFlags} {e : ℕ}
    (h : d.openFile p flags = (.error e, d')) : d'.files = d.files := by
  unfold Disk.openFile Disk.describe at h
  split at h
  · simp at h
  · split_ifs at h
    · simp at h
    · rw [(Prod.mk.inj h).2]

theorem Disk.openFile_ok {d d' : Disk} {p : Path} {flags : OpenFlags} {fd : Fd}
    (h : d.openFile p flags = (.ok fd, d')) :
    (d'.files = d.files ↔ ¬ flags.Alters (Disk.Missing d.files p) (Disk.Full d.files p)) ∧
      ¬ flags.Alters (Disk.Missing d'.files p) (Disk.Full d'.files p) := by
  unfold Disk.openFile at h
  cases hat : d.at_ p with
  | none =>
    -- the new file is empty
    rw [hat] at h
    dsimp only at h
    split_ifs at h with hcreat
    · obtain ⟨-, rfl⟩ := Prod.mk.inj h
      refine ⟨iff_of_false (fun heq => ?_) (not_not.2 (Or.inl ⟨hcreat, hat⟩)), ?_⟩
      · have hlen := congrArg List.length (congrArg Prod.fst heq)
        simp [Disk.make, Disk.files] at hlen
      · simp [OpenFlags.Alters, Disk.Missing, Disk.Full, Disk.files, Disk.make]
    · simp at h
  | some ino =>
    rw [hat] at h
    obtain ⟨-, rfl⟩ := Prod.mk.inj h
    have hat' : d.names.lookup p = some ino := hat
    cases htrunc : flags.trunc with
    | false => simp [OpenFlags.Alters, Disk.Missing, Disk.files, htrunc, hat']
    | true =>
      have hsame := modify_data_eq_self d.inodes ino
      simpa [OpenFlags.Alters, Disk.Missing, Disk.Full, Disk.files, Disk.store, htrunc, hat']
        using hsame

/-- The names and contents on the disk. -/
def fullFiles : Files fullSrv.env (List Inode × List (Path × ℕ)) where
  toFileView := (diskView scarceOpen).toFileView
  missing := Disk.Missing
  full := Disk.Full
  mkdir p mode d := by
    refine iff_of_false (fun h => ?_) nofun
    have hlen := congrArg List.length (congrArg Prod.fst h)
    simp [fullSrv, opening, os, Disk.make, diskView, Disk.files] at hlen
  openError p flags mode d e d' h := by
    change scarceOpen p flags mode d = _ at h
    unfold scarceOpen at h
    split_ifs at h
    · exact Disk.openFile_error h
    · rw [(Prod.mk.inj h).2]
  openOk p flags mode d fd d' h := by
    change scarceOpen p flags mode d = _ at h
    unfold scarceOpen at h
    split_ifs at h
    · exact Disk.openFile_ok h
    · simp at h

/-- A session on that system, whose descriptor is in use. -/
def fullState : Sx Disk :=
  { sess := {}
    host := { leases := ∅, mailboxes := [], os := { fds := [0] }, opened := 0, finished := [] }
    chain := { treeId := 1, transformSid := none }
    notify := {} }

/-- CREATE of the directory `d`. -/
def mkdirReq : Bytes :=
  createReq 0 0 0 1 1 0 fileCreate fileDirectoryFile ['d'] []

/-- CREATE of the file `a`, over whatever is there. -/
def overwriteReq : Bytes := createReq 0 0 0 1 1 fileWriteData fileOverwriteIf 0 ['a'] []

/-- Nothing is opened while the descriptor is in use. -/
theorem full_opens {d : Disk} (h : d.fds ≠ []) (req : CreateReq) (p : Path) (readOnly : Bool) :
    ¬ FileOpens fullSrv.env.os req p readOnly d := by
  have hopen : ∀ flags mode, fullSrv.env.os.openFile p flags mode d = (.error Errno.emfile, d) :=
    fun _ _ => if_neg h
  rintro (⟨-, fd, hfd⟩ | ⟨⟨hre, -⟩, -⟩)
  · rw [hopen] at hfd
    simp at hfd
  · unfold firstOpen openRaw Eff.refuse at hre
    split_ifs at hre
    · rw [Eff.bind_run_ok (Eff.pure_run () d), Eff.bind_run_error (hopen _ _)] at hre
      exact absurd (Except.error.inj hre) (by decide)
    · exact absurd (Except.error.inj hre) (by decide)

end Sample

open Sample in
/-- The missing file would be created, but is not opened. -/
theorem create_failed_iff_unopened :
    (create fullSrv overwriteReq (share false) ⟨0, false, false⟩ (0, 0, 0) false fullState).1 =
      .error Status.insufficientResources ∧
    fullFiles.Alters [['a']] (dispositionFlags fileOverwriteIf) fullState.host.os ∧
    ∀ e s', create fullSrv overwriteReq (share false) ⟨0, false, false⟩ (0, 0, 0) false fullState =
      (.error e, s') → (s'.sess.handles = fullState.sess.handles ∧
        s'.host.leases = fullState.host.leases) ∧
        fullFiles.files s'.host.os = fullFiles.files fullState.host.os := by
  have hiff := @create_failed_iff _ _ fullSrv overwriteReq (share false) ⟨0, false, false⟩ (0, 0, 0)
    false fullFiles fullState
  refine ⟨by decide +kernel, Or.inl ⟨by decide, rfl⟩, fun e s' h =>
    ⟨hiff.1 e s' h, hiff.2.2 (fun req path rel hreq _ _ => ?_) e s' h⟩⟩
  have hfile : (parseCreate overwriteReq).map CreateReq.dirRequested = some false := by
    decide +kernel
  rw [hreq] at hfile
  have hstat : (statMeta fullSrv.env.os path fullState.host.os).2 = fullState.host.os :=
    Eff.bind_pure_state _ _ _
  unfold Firm
  dsimp only
  rw [hstat]
  split_ifs with hdir hdir
  · exact absurd hdir.1 (by simp [Option.some.inj hfile])
  · exact fun _ hopens => absurd hopens (full_opens (by decide) req path _)

open Sample in
/-- The directory is made and cannot be opened: the request fails, and the directory stays. -/
theorem create_leaves_directory :
    (create fullSrv mkdirReq (share false) ⟨0, false, false⟩ (0, 0, 0) false fullState).1 =
      .error Status.insufficientResources ∧
    fullFiles.files (create fullSrv mkdirReq (share false) ⟨0, false, false⟩ (0, 0, 0) false
      fullState).2.host.os ≠ fullFiles.files fullState.host.os := by
  decide +kernel

end RocketSmbd
