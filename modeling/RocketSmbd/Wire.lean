import RocketSmbd.Lib.ByteString

/-!
# Little-endian wire primitives (`wire.rs`)

The reader `Rdr` and the writer `Put` shared by all protocol code, and the conversions between
text and UTF-16LE.  A `Rdr` is its unread bytes: `take` either hands out the next `n` of them or
fails and the whole parse with it.  Rust strings are lists of Unicode scalar values.
-/

namespace RocketSmbd

open ByteString

/-- A Rust string: its Unicode scalar values. -/
abbrev Str := List Char

/-- A parser over the unread bytes of a buffer. -/
abbrev Rdr := StateT Bytes Option

namespace Rdr

/-- The next `n` bytes. -/
def take (n : ℕ) : Rdr Bytes := fun b =>
  if n ≤ b.length then some (b.take n, b.drop n) else none

/-- Skip `n` bytes. -/
def skip (n : ℕ) : Rdr Unit := do
  let _ ← take n

/-- The next byte. -/
def u8 : Rdr UInt8 := do
  let s ← take 1
  pure (UInt8.ofNat (leNat s))

/-- The next little-endian 16-bit word. -/
def u16 : Rdr UInt16 := do
  let s ← take 2
  pure (UInt16.ofNat (leNat s))

/-- The next little-endian 32-bit word. -/
def u32 : Rdr UInt32 := do
  let s ← take 4
  pure (UInt32.ofNat (leNat s))

/-- The next little-endian 64-bit word. -/
def u64 : Rdr UInt64 := do
  let s ← take 8
  pure (UInt64.ofNat (leNat s))

/-- Up to `n` repetitions of a reader, each of which has to succeed. -/
def many {α : Type} (p : Rdr α) : ℕ → Rdr (List α)
  | 0 => pure []
  | n + 1 => do
    let x ← p
    let xs ← many p n
    pure (x :: xs)

/-- Run a parser on a buffer, dropping what it left unread. -/
def parse {α : Type} (p : Rdr α) (b : Bytes) : Option α := (p b).map Prod.fst

/-- Fail the parse. -/
def fail {α : Type} : Rdr α := fun _ => none

/-- The StructureSize that starts a request body. -/
def structureSize (n : UInt16) : Rdr Unit := do
  let size ← u16
  if size ≠ n then fail else pure ()

/-- A checked slice of another buffer, failing the parse when it is out of range. -/
def get (b : Bytes) (i j : ℕ) : Rdr Bytes := fun r => (slice b i j).map (·, r)

/-! ### What a reader has read -/

section

variable {α β : Type}
variable {k : α → Rdr β} {p : Rdr α}

/-- The reader takes `n` bytes. -/
def Reads (n : ℕ) (p : Rdr α) : Prop := ∀ b a r, p b = some (a, r) → r = b.drop n

theorem bind_eq_some {b : Bytes} {y : β × Bytes} :
    (p >>= k) b = some y ↔ ∃ a r, p b = some (a, r) ∧ k a r = some y := by
  change (p b).bind (fun x => k x.1 x.2) = some y ↔ _
  simp [Option.bind_eq_some_iff]

theorem reads_take (n : ℕ) : (take n).Reads n := by
  intro b a r h
  unfold take at h
  split_ifs at h
  exact (Prod.mk.inj (Option.some.inj h)).2.symm

theorem Reads.map {n : ℕ} (hp : p.Reads n) (f : α → β) :
    (do let a ← p; pure (f a) : Rdr β).Reads n := by
  intro b y r h
  obtain ⟨a, r', ha, hr⟩ := bind_eq_some.1 h
  obtain rfl : r' = r := (Prod.mk.inj (Option.some.inj hr)).2
  exact hp b a r' ha

theorem reads_skip (n : ℕ) : (skip n).Reads n := (reads_take n).map _
theorem reads_u8 : u8.Reads 1 := (reads_take 1).map _
theorem reads_u16 : u16.Reads 2 := (reads_take 2).map _
theorem reads_u32 : u32.Reads 4 := (reads_take 4).map _
theorem reads_u64 : u64.Reads 8 := (reads_take 8).map _

theorem reads_structureSize (n : UInt16) : (structureSize n).Reads 2 := by
  intro b a r h
  obtain ⟨size, r', hsize, hr⟩ := bind_eq_some.1 h
  split_ifs at hr
  · exact absurd hr (by simp [fail])
  · obtain rfl : r' = r := (Prod.mk.inj (Option.some.inj hr)).2
    exact reads_u16 b size r' hsize

/-- Every value that the reader gives satisfies `Q`. -/
def Gives (p : Rdr α) (Q : α → Prop) : Prop := ∀ b a r, p b = some (a, r) → Q a

theorem Gives.ret {a : α} {Q : α → Prop} (h : Q a) : (pure a : Rdr α).Gives Q := by
  intro b a' r hb
  obtain rfl : a = a' := (Prod.mk.inj (Option.some.inj hb)).1
  exact h

theorem Gives.after {Q : β → Prop} (hk : ∀ a, (k a).Gives Q) :
    (p >>= k).Gives Q := by
  intro b y r hb
  obtain ⟨a, r', -, hr⟩ := bind_eq_some.1 hb
  exact hk a r' y r hr

theorem Gives.parse {Q : α → Prop} (hp : p.Gives Q) {b : Bytes} {a : α}
    (h : p.parse b = some a) : Q a := by
  obtain ⟨⟨a', r⟩, hpb, rfl⟩ := Option.map_eq_some_iff.1 h
  exact hp b a' r hpb

/-- What comes after a reader of `n` bytes starts at byte `n`. -/
theorem Reads.peel {n : ℕ} {b : Bytes} {y : β × Bytes}
    (hp : p.Reads n) (h : (p >>= k) b = some y) : ∃ a, k a (b.drop n) = some y := by
  obtain ⟨a, r, ha, hk⟩ := bind_eq_some.1 h
  exact ⟨a, hp b a r ha ▸ hk⟩

end

end Rdr

/-! ### Writing -/

def p8 (v : UInt8) : Bytes := leBytes 1 v.toNat
def p16 (v : UInt16) : Bytes := leBytes 2 v.toNat
def p32 (v : UInt32) : Bytes := leBytes 4 v.toNat
def p64 (v : UInt64) : Bytes := leBytes 8 v.toNat

@[simp] theorem p8_length (v : UInt8) : (p8 v).length = 1 := leBytes_length ..
@[simp] theorem p16_length (v : UInt16) : (p16 v).length = 2 := leBytes_length ..
@[simp] theorem p32_length (v : UInt32) : (p32 v).length = 4 := leBytes_length ..
@[simp] theorem p64_length (v : UInt64) : (p64 v).length = 8 := leBytes_length ..

theorem ofNat_leNat_p32 (v : UInt32) : UInt32.ofNat (leNat (p32 v)) = v := by
  have hv : v.toNat < 256 ^ 4 := v.toNat_lt
  rw [p32, leNat_leBytes, Nat.mod_eq_of_lt hv, UInt32.ofNat_toNat]

theorem p16_ofNat (n : ℕ) : p16 (UInt16.ofNat n) = leBytes 2 n := by
  rw [p16, UInt16.toNat_ofNat']
  exact leBytes_mod 2 n

theorem p32_ofNat (n : ℕ) : p32 (UInt32.ofNat n) = leBytes 4 n := by
  rw [p32, UInt32.toNat_ofNat']
  exact leBytes_mod 4 n

/-- Overwrite the 32-bit word at `off`. -/
def patch32 (tx : Bytes) (off : ℕ) (v : UInt32) : Bytes := patch tx off (p32 v)

/-- Pad with zeros so that `tx.length - base` is a multiple of 8. -/
def pad8 (tx : Bytes) (base : ℕ) : Bytes :=
  let rem := (tx.length - base) % 8
  if rem ≠ 0 then tx ++ zeros (8 - rem) else tx

/-! ### Text -/

/-- The UTF-16 code units of a scalar value. -/
def utf16Units (c : Char) : List UInt16 :=
  if c.toNat < 0x10000 then [UInt16.ofNat c.toNat]
  else
    let v := c.toNat - 0x10000
    [UInt16.ofNat (0xD800 + v / 0x400), UInt16.ofNat (0xDC00 + v % 0x400)]

def utf16le (s : Str) : Bytes := (s.flatMap utf16Units).flatMap p16

/-- The 16-bit words of a byte string; an odd last byte is dropped (`chunks_exact(2)`). -/
def chunks16 : Bytes → List UInt16
  | a :: b :: rest => UInt16.ofNat (a.toNat + 256 * b.toNat) :: chunks16 rest
  | _ => []

/-- `String::from_utf16_lossy`: an unpaired surrogate becomes U+FFFD. -/
def fromUtf16Lossy : List UInt16 → Str
  | [] => []
  | u :: rest =>
    if u.toNat < 0xD800 ∨ 0xDFFF < u.toNat then Char.ofNat u.toNat :: fromUtf16Lossy rest
    else
      match rest with
      | v :: rest' =>
        if u.toNat < 0xDC00 ∧ 0xDC00 ≤ v.toNat ∧ v.toNat ≤ 0xDFFF then
          Char.ofNat (0x10000 + (u.toNat - 0xD800) * 0x400 + (v.toNat - 0xDC00)) ::
            fromUtf16Lossy rest'
        else Char.ofNat 0xFFFD :: fromUtf16Lossy (v :: rest')
      | [] => [Char.ofNat 0xFFFD]

def fromUtf16le (b : Bytes) : Str := fromUtf16Lossy (chunks16 b)

/-- ASCII lower case of one character; every other character is itself. -/
def asciiLower (c : Char) : Char :=
  if 'A' ≤ c ∧ c ≤ 'Z' then Char.ofNat (c.toNat + 32) else c

/-- `str::eq_ignore_ascii_case`. -/
def eqIgnoreAsciiCase (s t : Str) : Bool := s.map asciiLower == t.map asciiLower

/-- The characters of a literal. -/
def lit (s : String) : Str := s.toList

end RocketSmbd
