import RocketSmbd.Life.Deeds
import RocketSmbd.Sample

/-!
# What is in the files

`FileView` is what the statements about files assume of the state outside: names and contents can
be read off it, and the calls that only look, or have nothing to do with files, leave them.
`LockView` has the locks on files, too: a call that looks leaves them, and so does closing a
duplicate of a descriptor that stays open.
-/

namespace RocketSmbd

variable {σ V : Type}

/-- `files` is the names and contents of the files. -/
structure FileView (env : Env σ) (V : Type) where
  files : σ → V
  look : ∀ {s t : σ}, env.os.Call .look s t → files t = files s
  aside : ∀ {s t : σ}, Aside env s t → files t = files s

namespace FileView

variable {env : Env σ} (F : FileView env V)

/-- The files are the same in both states. -/
def Same (s t : σ) : Prop := F.files t = F.files s

instance : Std.Refl F.Same := ⟨fun _ => rfl⟩

instance : IsTrans σ F.Same := ⟨fun _ _ _ h h' => h'.trans h⟩

end FileView

/-- `locks` is the locks on the files. -/
structure LockView (env : Env σ) (V K : Type) extends FileView env V where
  locks : σ → K
  lookLocks : ∀ {s t : σ}, env.os.Call .look s t → locks t = locks s
  consultsLocks : ∀ {s t : σ}, Consults env s t → locks t = locks s

namespace Sample

/-- The names and contents on a disk. -/
def Disk.files (d : Disk) : List Inode × List (Path × ℕ) := (d.inodes, d.names)

/-- Names, contents and locks are the same. -/
def Disk.Same (d d' : Disk) : Prop := d'.files = d.files ∧ d'.locks = d.locks

theorem Disk.Same.trans {a b c : Disk} (h : a.Same b) (h' : b.Same c) : a.Same c :=
  ⟨h'.1.trans h.1, h'.2.trans h.2⟩

theorem Disk.ofFd_same {A : Type} (d : Disk) (fd : Fd) {f : ℕ → Except ℕ A × Disk}
    (hf : ∀ ino, d.Same (f ino).2) : d.Same (d.ofFd fd f).2 := by
  unfold Disk.ofFd
  split
  · exact ⟨rfl, rfl⟩
  · exact hf _

/-- The sample system with another `open(2)`. -/
def opening (openFile : Path → OpenFlags → ℕ → Eff Disk ℕ Fd) : Env Disk :=
  { env with os := { os with openFile } }

section

variable {openFile : Path → OpenFlags → ℕ → Eff Disk ℕ Fd} {d d' : Disk}

theorem dup_same {fd fd' : Fd} (h : os.dup fd d = (.ok fd', d')) : d.Same d' := by
  have hdup : d.Same (os.dup fd d).2 := d.ofFd_same fd fun _ => ⟨rfl, rfl⟩
  rwa [h] at hdup

theorem look_same (h : (opening openFile).os.Call .look d d') : d.Same d' := by
  cases h with
  | fstat fd | dup fd | pread fd len off => exact d.ofFd_same fd fun _ => ⟨rfl, rfl⟩
  | spareFstat hdup | sparePread len off hdup =>
    exact (dup_same hdup).trans (Disk.ofFd_same _ _ fun _ => ⟨rfl, rfl⟩)
  | _ => exact ⟨rfl, rfl⟩

theorem consults_same (h : Consults (opening openFile) d d') : d.Same d' := by
  cases h <;> exact ⟨rfl, rfl⟩

end

/-- What is on the sample disk. -/
def diskView (openFile : Path → OpenFlags → ℕ → Eff Disk ℕ Fd) :
    LockView (opening openFile) (List Inode × List (Path × ℕ))
      (List (Fd × LockKind × ℕ × ℕ)) where
  files := Disk.files
  look h := (look_same h).1
  aside h := by
    cases h with
    | consults h => exact (consults_same h).1
    | _ => rfl
  locks := Disk.locks
  lookLocks h := (look_same h).2
  consultsLocks h := (consults_same h).2

end Sample

end RocketSmbd
