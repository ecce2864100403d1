import RocketSmbd.Lib.Packing
import RocketSmbd.Smb2.Create
import RocketSmbd.Smb2.Fields

/-!
# The walk over the create contexts

A CREATE request carries a list of create contexts, each linked to the next by the distance in its
Next field, with a name and data at offsets of its own.  `parse_lease_ctx` walks the list for the
first lease request.

* `LeaseLayout`: how a lease is laid out in the data of a context;
* `leaseWalk_parse`: the walk ends on every byte string;
* `parseLeaseCtx_list`: what it finds in a list of well-formed contexts.
-/

namespace RocketSmbd

open ByteString Linked

/-! ### The format -/

/-- A create context: its name and data. -/
structure CreateCtx where
  name : Bytes
  data : Bytes
  deriving DecidableEq

/-- The bytes `r` are laid out as the context `c`: a header of 16 bytes whose offsets and lengths
point at the name and the data.  Its Next field is left to the list. -/
structure IsCtx (r : Bytes) (c : CreateCtx) : Prop where
  header : 16 ≤ r.length
  name : slice r (leNat (r.extract 4 6)) (leNat (r.extract 4 6) + leNat (r.extract 6 8)) =
    some c.name
  data : slice r (leNat (r.extract 10 12)) (leNat (r.extract 10 12) + leNat (r.extract 12 16)) =
    some c.data

/-- A list of contexts, each but the last linked to the one after it. -/
def IsCtxList (rs : List Bytes) (cs : List CreateCtx) : Prop :=
  List.Forall₂ IsCtx rs cs ∧ (rs = [] ∨ Chained 0 rs)

/-- A lease request: named `RqLs`, with at least the data of its first version. -/
def CreateCtx.IsLease (c : CreateCtx) : Prop := c.name = ctxNameRqls ∧ 32 ≤ c.data.length

instance (c : CreateCtx) : Decidable c.IsLease := inferInstanceAs (Decidable (_ ∧ _))

/-- The data of a lease context: key, state, flags, duration, and in the second version the
parent's key and the epoch.  The first version has neither. -/
structure LeaseLayout (data : Bytes) (l : LeaseReq) : Prop where
  key : l.key.length = 16
  layout : ∃ flags duration more : Bytes, flags.length = 4 ∧ duration.length = 8 ∧
    data = l.key ++ p32 l.state ++ flags ++ duration ++ more ∧
    match l.v2 with
    | true => l.parent.length = 16 ∧
        ∃ rest : Bytes, 2 ≤ rest.length ∧ more = l.parent ++ p16 l.epoch ++ rest
    | false => more.length < 20 ∧ l.parent = zeros 16 ∧ l.epoch = 0

/-- What the parser reads in the data is what is laid out there. -/
theorem leaseLayout_leaseData {data : Bytes} (h : 32 ≤ data.length) :
    LeaseLayout data (leaseData data) := by
  have hpart : ∀ i j, j ≤ data.length → i ≤ j → (data.extract i j).length = j - i := by
    intro i j hj hij
    rw [List.extract_eq_take_drop, List.length_take, List.length_drop]
    omega
  have hjoin : ∀ i j k, i ≤ j → j ≤ k →
      data.extract i j ++ data.extract j k = data.extract i k := by
    intro i j k hij hjk
    rw [List.extract_eq_take_drop, List.extract_eq_take_drop, List.extract_eq_take_drop]
    have hdrop : data.drop j = (data.drop i).drop (j - i) := by
      rw [List.drop_drop]
      congr 1
      omega
    rw [hdrop, show k - i = (j - i) + (k - j) by omega, List.take_add]
  have hall : data.extract 0 data.length = data := by simp
  have hstate : p32 (UInt32.ofNat (leNat (data.extract 16 20))) = data.extract 16 20 := by
    have hbytes := leBytes_leNat (data.extract 16 20)
    rwa [hpart 16 20 (by omega) (by omega), ← p32_ofNat] at hbytes
  refine ⟨hpart 0 16 (by omega) (by omega), data.extract 20 24, data.extract 24 32,
    data.extract 32 data.length, hpart 20 24 (by omega) (by omega),
    hpart 24 32 (by omega) (by omega), ?_, ?_⟩
  · dsimp only [leaseData]
    rw [hstate, hjoin 0 16 20 (by omega) (by omega), hjoin 0 20 24 (by omega) (by omega),
      hjoin 0 24 32 (by omega) (by omega), hjoin 0 32 _ (by omega) h, hall]
  · by_cases hv2 : 52 ≤ data.length
    · have hepoch : p16 (UInt16.ofNat (leNat (data.extract 48 50))) = data.extract 48 50 := by
        have hbytes := leBytes_leNat (data.extract 48 50)
        rwa [hpart 48 50 (by omega) (by omega), ← p16_ofNat] at hbytes
      simp only [leaseData, hv2, decide_true, if_true]
      refine ⟨hpart 32 48 (by omega) (by omega), data.extract 50 data.length, ?_, ?_⟩
      · rw [hpart 50 _ le_rfl (by omega)]
        omega
      · rw [hepoch, hjoin 32 48 50 (by omega) (by omega), hjoin 32 50 _ (by omega) (by omega)]
    · simp only [leaseData, hv2, decide_false, Bool.false_eq_true, if_false, and_true]
      rw [hpart 32 _ le_rfl h]
      omega

/-- A layout determines the lease. -/
theorem LeaseLayout.leaseData_eq {data : Bytes} {l : LeaseReq} (h : LeaseLayout data l) :
    leaseData data = l := by
  obtain ⟨key, state, v2, parent, epoch⟩ := l
  obtain ⟨hkey, flags, duration, more, hflags, hduration, hdata, hmore⟩ := h
  dsimp only at hkey hdata hmore
  have hlen : data.length = 32 + more.length := by
    rw [hdata]
    simp only [List.length_append, hkey, p32_length, hflags, hduration]
  have hk : data.extract 0 16 = key :=
    extract_field (a := []) (b := p32 state ++ flags ++ duration ++ more) (by simp [hdata]) rfl
      (by rw [hkey])
  have hs : data.extract 16 20 = p32 state :=
    extract_field (a := key) (b := flags ++ duration ++ more) (by simp [hdata]) hkey rfl
  cases v2 with
  | false =>
    obtain ⟨hshort, rfl, rfl⟩ := hmore
    have hv1 : ¬ 52 ≤ data.length := by omega
    simp [leaseData, hv1, hk, hs, ofNat_leNat_p32]
  | true =>
    obtain ⟨hparent, rest, hrest, rfl⟩ := hmore
    have hv2 : 52 ≤ data.length := by
      rw [hlen]
      simp only [List.length_append, hparent, p16_length]
      omega
    have hp : data.extract 32 48 = parent :=
      extract_field (a := key ++ p32 state ++ flags ++ duration) (b := p16 epoch ++ rest)
        (by simp [hdata]) (by simp [hkey, hflags, hduration]) (by rw [hparent])
    have he : data.extract 48 50 = p16 epoch :=
      extract_field (a := key ++ p32 state ++ flags ++ duration ++ parent) (b := rest)
        (by simp [hdata]) (by simp [hkey, hflags, hduration, hparent]) rfl
    simp [leaseData, hv2, hk, hs, hp, he, ofNat_leNat_p32, ofNat_leNat_p16]

/-! ### The walk -/

/-- The lease request in the context at the head of the buffer. -/
def leaseFound (buf : Bytes) : Option LeaseReq :=
  let nameOff := leNat (buf.extract 4 6)
  let nameLen := leNat (buf.extract 6 8)
  let dataOff := leNat (buf.extract 10 12)
  let dataLen := leNat (buf.extract 12 16)
  if nameLen = 4 then
    match slice buf nameOff (nameOff + 4), slice buf dataOff (dataOff + dataLen) with
    | some nm, some data =>
      if nm = ctxNameRqls ∧ 32 ≤ data.length then some (leaseData data) else none
    | _, _ => none
  else none

theorem leaseCtxWalk_succ (fuel : ℕ) (buf : Bytes) :
    leaseCtxWalk (fuel + 1) buf =
      if buf.length < 16 then none
      else match leaseFound buf with
        | some l => some l
        | none =>
          if leNat (buf.extract 0 4) = 0 ∨ buf.length ≤ leNat (buf.extract 0 4) then none
          else leaseCtxWalk fuel (buf.drop (leNat (buf.extract 0 4))) := rfl

/-- The loop of `parse_lease_ctx`, started on `buf`, ends with `r`. -/
inductive LeaseWalk : Bytes → Option LeaseReq → Prop
  | short {buf : Bytes} (h : buf.length < 16) : LeaseWalk buf none
  | found {buf : Bytes} {l : LeaseReq} (h : 16 ≤ buf.length) (hl : leaseFound buf = some l) :
    LeaseWalk buf (some l)
  | last {buf : Bytes} (h : 16 ≤ buf.length) (hl : leaseFound buf = none)
    (hnext : leNat (buf.extract 0 4) = 0 ∨ buf.length ≤ leNat (buf.extract 0 4)) :
    LeaseWalk buf none
  | next {buf : Bytes} {r : Option LeaseReq} (h : 16 ≤ buf.length) (hl : leaseFound buf = none)
    (hnext : ¬ (leNat (buf.extract 0 4) = 0 ∨ buf.length ≤ leNat (buf.extract 0 4)))
    (hrest : LeaseWalk (buf.drop (leNat (buf.extract 0 4))) r) : LeaseWalk buf r

theorem leaseWalk_leaseCtxWalk {fuel : ℕ} {buf : Bytes} (hfuel : buf.length ≤ fuel) :
    LeaseWalk buf (leaseCtxWalk fuel buf) := by
  induction fuel generalizing buf with
  | zero => exact .short (by omega)
  | succ fuel ih =>
    rw [leaseCtxWalk_succ]
    by_cases hshort : buf.length < 16
    · rw [if_pos hshort]
      exact .short hshort
    · rw [if_neg hshort]
      cases hl : leaseFound buf with
      | some l => exact .found (not_lt.1 hshort) hl
      | none =>
        dsimp only
        split_ifs with hnext
        · exact .last (not_lt.1 hshort) hl hnext
        · -- the step drops at least one byte, so the fuel lasts
          refine .next (not_lt.1 hshort) hl hnext (ih ?_)
          rw [List.length_drop]
          omega

theorem leaseWalk_parse (buf : Bytes) : LeaseWalk buf (parseLeaseCtx buf) :=
  leaseWalk_leaseCtxWalk le_rfl

/-- Where the walk finds a lease, it is laid out as one. -/
theorem LeaseWalk.layout {buf : Bytes} {r : Option LeaseReq} (h : LeaseWalk buf r) {l : LeaseReq}
    (hr : r = some l) : ∃ data, LeaseLayout data l := by
  induction h with
  | short => exact nomatch hr
  | last => exact nomatch hr
  | next _ _ _ _ ih => exact ih hr
  | found _ hl =>
    obtain rfl := Option.some.inj hr
    unfold leaseFound at hl
    dsimp only at hl
    split_ifs at hl
    split at hl
    · next nm data _ _ =>
      split_ifs at hl with hlease
      obtain rfl := Option.some.inj hl
      exact ⟨data, leaseLayout_leaseData hlease.2⟩
    · exact nomatch hl

/-! ### Well-formed lists -/

/-- The head of the list is a lease request exactly if its context is one. -/
theorem IsCtx.leaseFound {r : Bytes} {c : CreateCtx} (h : IsCtx r c) (rest : Bytes) :
    leaseFound (r ++ rest) = if c.IsLease then some (leaseData c.data) else none := by
  have hfield : ∀ i j, j ≤ 16 → (r ++ rest).extract i j = r.extract i j := by
    intro i j hj
    exact extract_append_left _ _ _ _ (hj.trans h.header)
  have hdata := slice_append_left h.data rest
  have hlen := slice_length h.name
  unfold RocketSmbd.leaseFound
  dsimp only
  rw [hfield 4 6 (by omega), hfield 6 8 (by omega), hfield 10 12 (by omega),
    hfield 12 16 (by omega), hdata]
  by_cases h4 : leNat (r.extract 6 8) = 4
  · have hname := slice_append_left h.name rest
    rw [h4] at hname
    rw [if_pos h4, hname]
    rfl
  · have hne : ¬ c.IsLease := by
      rintro ⟨hrqls, -⟩
      rw [hrqls] at hlen
      exact h4 (by simpa [ctxNameRqls] using hlen.symm)
    rw [if_neg h4, if_neg hne]

theorem leaseCtxWalk_chained {rs : List Bytes} {cs : List CreateCtx}
    (hrs : List.Forall₂ IsCtx rs cs) (hchain : Chained 0 rs) {fuel : ℕ}
    (hfuel : rs.length ≤ fuel) :
    leaseCtxWalk fuel rs.flatten =
      (cs.find? fun c => c.IsLease).map fun c => leaseData c.data := by
  induction hchain generalizing cs fuel with
  | @last r hnext =>
    obtain ⟨fuel, rfl⟩ : ∃ n, fuel = n + 1 := Nat.exists_eq_add_of_le' hfuel
    cases hrs with
    | cons hr hnil =>
      cases hnil
      have hfound := hr.leaseFound []
      have hheader := hr.header
      rw [List.append_nil] at hfound
      have hzero : leNat (r.extract 0 4) = 0 := hnext
      rw [List.flatten_singleton, leaseCtxWalk_succ, if_neg (by omega), hfound,
        if_pos (Or.inl hzero)]
      split_ifs with hlease <;> simp [hlease]
  | @cons r rs hlinked hrest ih =>
    obtain ⟨fuel, rfl⟩ : ∃ n, fuel = n + 1 := Nat.exists_eq_add_of_le' (by
      rw [List.length_cons] at hfuel
      omega)
    cases hrs with
    | @cons _ c _ cs hr hrs =>
      have hheader := hr.header
      have hnext : leNat ((r ++ rs.flatten).extract 0 4) = r.length :=
        (distance_append hlinked.length rs.flatten).trans hlinked.distance
      have hmore : 16 ≤ rs.flatten.length := by
        cases hrs with
        | nil => cases hrest
        | cons hr' _ =>
          have := hr'.header
          rw [List.flatten_cons, List.length_append]
          omega
      have hlong : ¬ (r ++ rs.flatten).length < 16 := by
        rw [List.length_append]
        omega
      have hgo : ¬ (r.length = 0 ∨ (r ++ rs.flatten).length ≤ r.length) := by
        rw [List.length_append]
        omega
      rw [List.flatten_cons, leaseCtxWalk_succ, if_neg hlong, hr.leaseFound, hnext, if_neg hgo,
        List.drop_left, ih hrs (by simpa using hfuel)]
      by_cases hlease : c.IsLease <;> simp [hlease]

theorem parseLeaseCtx_list {rs : List Bytes} {cs : List CreateCtx} (h : IsCtxList rs cs) :
    parseLeaseCtx rs.flatten = (cs.find? fun c => c.IsLease).map fun c => leaseData c.data := by
  obtain ⟨hrs, rfl | hchain⟩ := h
  · cases hrs
    rfl
  · have hpos : ∀ r ∈ rs, 0 < r.length := by
      clear hchain
      induction hrs with
      | nil => exact fun r hr => absurd hr List.not_mem_nil
      | cons hc _ ih =>
        intro r hr
        rcases List.mem_cons.1 hr with rfl | hr
        · exact Nat.lt_of_lt_of_le (by decide) hc.header
        · exact ih r hr
    exact leaseCtxWalk_chained hrs hchain (length_le_flatten hpos)

theorem parseCreate_layout {msg : Bytes} {req : CreateReq} {l : LeaseReq}
    (h : parseCreate msg = some req) (hl : req.lease = some l) : ∃ data, LeaseLayout data l := by
  have hgives : (createFields msg).Gives fun req => ∀ l, req.lease = some l →
      ∃ data, LeaseLayout data l := by
    refine .after fun _ => .after fun _ => .after fun _ => .after fun _ => .after fun _ =>
      .after fun _ => .after fun _ => .after fun _ => .after fun _ => .after fun _ =>
      .after fun _ => .after fun _ => .after fun _ => .after fun _ => .ret fun l hl => ?_
    dsimp only at hl
    split_ifs at hl
    obtain ⟨buf, -, hbuf⟩ := Option.bind_eq_some_iff.1 hl
    exact (leaseWalk_parse buf).layout hbuf
  unfold parseCreate at h
  split_ifs at h
  exact hgives.parse h l hl

end RocketSmbd
