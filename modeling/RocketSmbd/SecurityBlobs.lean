import RocketSmbd.SpnegoTokens

/-!
# Two readers of one security blob (`spnego.rs`, `ntlm.rs`)

`Spnego.classify` follows the DER structure to the token it routes by; the NTLM code looks for the
first signature anywhere in the blob.  `tokenAt` follows the same path as `classify` and gives the
position of its token in the blob.  Both readers see the same message exactly when no signature
stands in front of that position.
-/

namespace RocketSmbd

open ByteString

namespace Spnego

variable {pos : ℕ}

/-! ### Where the classified token stands -/

/-- Where the content of an element starts, from the start of the element. -/
def Tlv.off (t : Tlv) : ℕ := t.len - t.val.length

/-- The elements of a list that starts at `pos`, each with the position of its content. -/
def contentsAt : ℕ → List Tlv → List (ℕ × Tlv)
  | _, [] => []
  | pos, t :: ts => (pos + t.off, t) :: contentsAt (pos + t.len) ts

/-- One field of a negotiation token, as far as the position of the token goes. -/
def tokenField (pos : Option ℕ) (field : ℕ × Tlv) : Option ℕ :=
  if field.2.tag = 0xA2 then
    match (tlv field.2.val).filter (·.tag = 0x04) with
    | some os => some (field.1 + os.off)
    | none => pos
  else pos

/-- The position of the token among the fields of a sequence whose content starts at `pos`. -/
def fieldsTokenAt (pos : ℕ) (seq : Bytes) : Option ℕ :=
  (contentsAt pos (children seq)).foldl tokenField none

/-- As `parseNegInit`, for a body at `pos`. -/
def initTokenAt (pos : ℕ) (body : Bytes) : Option ℕ :=
  match (tlv body).filter (·.tag = 0x30) with
  | none => none
  | some seq => fieldsTokenAt (pos + seq.off) seq.val

/-- As `parseNegResp`. -/
def respTokenAt (blob : Bytes) : Option ℕ :=
  match (tlv blob).filter (·.tag = 0xA1) with
  | none => none
  | some outer => initTokenAt outer.off outer.val

/-- The position in the blob of the token that `classify` returns; `none` when it returns the empty
slice that stands for a missing token. -/
def tokenAt (blob : Bytes) : Option ℕ :=
  if blob.head? = some 0x60 then
    match tlv blob with
    | none => some 0
    | some t =>
      match children t.val with
      | [] => some 0
      | oid :: more =>
        if oid.tag = 0x06 ∧ oid.val = oidSpnego then
          match more with
          | neg :: _ => initTokenAt (t.off + oid.len + neg.off) neg.val
          | [] => some 0
        else some 0
  else if blob.head? = some 0xA1 then respTokenAt blob
  else some 0

/-- A part that the position names, or nothing. -/
def Placed (blob : Bytes) (pos : Option ℕ) (part : Bytes) : Prop :=
  match pos with
  | some p => part <+: blob.drop p
  | none => part = []

theorem tlvBody_spec {buf : Bytes} {tag : UInt8} {hdr len : ℕ} {t : Tlv}
    (h : tlvBody buf tag hdr len = some t) :
    ∃ pre post, buf = pre ++ t.val ++ post ∧ t.off = pre.length ∧
      t.len = (pre ++ t.val).length := by
  unfold tlvBody at h
  split_ifs at h with hfits
  obtain rfl := Option.some.inj h
  have hpre : (buf.take hdr).length = hdr := by
    rw [List.length_take]
    omega
  have hval : ((buf.take (hdr + len)).drop hdr).length = len := by
    rw [List.length_drop, List.length_take]
    omega
  have htake : buf.take hdr ++ (buf.take (hdr + len)).drop hdr = buf.take (hdr + len) := by
    have hsplit := List.take_append_drop hdr (buf.take (hdr + len))
    rwa [List.take_take, Nat.min_eq_left (by omega)] at hsplit
  refine ⟨buf.take hdr, buf.drop (hdr + len), ?_, ?_, ?_⟩
  · rw [htake, List.take_append_drop]
  · rw [Tlv.off, hval, hpre]
    exact Nat.add_sub_cancel hdr len
  · rw [List.length_append, hval, hpre]

/-- An element is a header and a content at the front of the buffer. -/
theorem tlv_spec {buf : Bytes} {t : Tlv} (h : tlv buf = some t) :
    ∃ pre post, buf = pre ++ t.val ++ post ∧ t.off = pre.length ∧
      t.len = (pre ++ t.val).length := by
  unfold tlv at h
  split at h
  · split_ifs at h
    · exact tlvBody_spec h
    · split at h
      · exact tlvBody_spec h
      · exact absurd h (by simp)
    · split at h
      · exact tlvBody_spec h
      · exact absurd h (by simp)
  · exact absurd h (by simp)

/-- A part of a part is a part. -/
theorem prefix_drop {blob pre part post : Bytes}
    (h : pre ++ part ++ post <+: blob.drop pos) : part <+: blob.drop (pos + pre.length) := by
  obtain ⟨more, hmore⟩ := h
  rw [← List.drop_drop, ← hmore, List.append_assoc, List.append_assoc, List.drop_left]
  exact List.prefix_append ..

/-- The content of an element is part of what the element is part of. -/
theorem prefix_content {blob buf : Bytes} {t : Tlv} (hbuf : buf <+: blob.drop pos)
    (h : tlv buf = some t) : t.val <+: blob.drop (pos + t.off) := by
  obtain ⟨pre, post, rfl, hoff, -⟩ := tlv_spec h
  rw [hoff]
  exact prefix_drop hbuf

theorem prefix_contentsAt {blob : Bytes} {n : ℕ} {buf : Bytes}
    (hbuf : buf <+: blob.drop pos) :
    ∀ f ∈ contentsAt pos (childrenUpTo n buf), f.2.val <+: blob.drop f.1 := by
  induction n generalizing buf pos with
  | zero => simp [childrenUpTo, contentsAt]
  | succ n ih =>
    rw [childrenUpTo]
    split
    · simp [contentsAt]
    · rename_i t ht
      intro f hf
      rcases List.mem_cons.1 hf with rfl | hf
      · exact prefix_content hbuf ht
      · refine ih ?_ f hf
        obtain ⟨pre, post, rfl, -, hlen⟩ := tlv_spec ht
        rw [hlen, List.drop_left]
        have hrest : (pre ++ t.val) ++ post ++ [] <+: blob.drop pos := by rwa [List.append_nil]
        exact prefix_drop hrest

/-- The fields of a token, read for their content and for their position.  The induction is over the
fields, with the token found so far and its position. -/
theorem placed_fields {blob : Bytes} {read : Incoming → Tlv → Incoming}
    (hread : ∀ inc t, (read inc t).token =
      if t.tag = 0xA2 then (octets t.val).getD inc.token else inc.token)
    {ts : List Tlv} (hts : ∀ f ∈ contentsAt pos ts, f.2.val <+: blob.drop f.1)
    {inc : Incoming} {p : Option ℕ} (hp : Placed blob p inc.token) :
    Placed blob ((contentsAt pos ts).foldl tokenField p) (ts.foldl read inc).token := by
  induction ts generalizing pos inc p with
  | nil => exact hp
  | cons t ts ih =>
    refine ih (fun f hf => hts f (List.mem_cons_of_mem _ hf)) ?_
    have hcontent : t.val <+: blob.drop (pos + t.off) := hts (pos + t.off, t) List.mem_cons_self
    rw [hread]
    by_cases htag : t.tag = 0xA2
    · rw [if_pos htag, tokenField, if_pos htag, octets]
      cases hos : (tlv t.val).filter (·.tag = 0x04) with
      | none => exact hp
      | some os =>
        have hos' : tlv t.val = some os := (Option.filter_eq_some_iff.1 hos).1
        exact prefix_content hcontent hos'
    · rw [if_neg htag, tokenField, if_neg htag]
      exact hp

theorem negInitField_token (inc : Incoming) (t : Tlv) : (negInitField inc t).token =
    if t.tag = 0xA2 then (octets t.val).getD inc.token else inc.token := by
  rw [negInitField]
  by_cases hmechs : t.tag = 0xA0
  · rw [if_pos hmechs, if_neg (by rw [hmechs]; decide)]
  · rw [if_neg hmechs]
    split_ifs <;> rfl

theorem negRespField_token_eq (inc : Incoming) (t : Tlv) : (negRespField inc t).token =
    if t.tag = 0xA2 then (octets t.val).getD inc.token else inc.token := by
  rw [negRespField]
  by_cases hmech : t.tag = 0xA1
  · rw [if_pos hmech, if_neg (by rw [hmech]; decide)]
    split <;> rfl
  · rw [if_neg hmech]
    split_ifs <;> rfl

theorem sniff_token (inc : Incoming) : (sniff inc).token = inc.token := by
  unfold sniff
  split_ifs <;> rfl

/-- The fields of a sequence, read one after another. -/
def readSeq (read : Incoming → Tlv → Incoming) (body : Bytes) : Incoming :=
  match (tlv body).filter (·.tag = 0x30) with
  | none => ⟨.unknown, true, []⟩
  | some seq => (children seq.val).foldl read ⟨.unknown, true, []⟩

/-- The position that a sequence of fields gives for the token. -/
theorem placed_seq {blob body : Bytes} (hbody : body <+: blob.drop pos)
    {read : Incoming → Tlv → Incoming}
    (hread : ∀ inc t, (read inc t).token =
      if t.tag = 0xA2 then (octets t.val).getD inc.token else inc.token) :
    Placed blob (initTokenAt pos body) (readSeq read body).token := by
  rw [initTokenAt, readSeq]
  cases hseq : (tlv body).filter (·.tag = 0x30) with
  | none => rfl
  | some seq =>
    have hcontent := prefix_content hbody (Option.filter_eq_some_iff.1 hseq).1
    have hnone : Placed blob none (⟨.unknown, true, []⟩ : Incoming).token := rfl
    exact placed_fields hread (prefix_contentsAt hcontent) hnone

theorem parseNegResp_token {blob : Bytes} {outer : Tlv}
    (h : (tlv blob).filter (·.tag = 0xA1) = some outer) :
    (parseNegResp blob).token = (readSeq negRespField outer.val).token := by
  rw [parseNegResp, h, readSeq]
  dsimp only
  cases (tlv outer.val).filter (·.tag = 0x30) with
  | none => rfl
  | some seq => exact sniff_token _

theorem placed_resp (blob : Bytes) : Placed blob (respTokenAt blob) (parseNegResp blob).token := by
  rw [respTokenAt]
  cases houter : (tlv blob).filter (·.tag = 0xA1) with
  | none =>
    rw [parseNegResp, houter]
    rfl
  | some outer =>
    have hblob : blob <+: blob.drop 0 := List.prefix_rfl
    have hcontent := prefix_content hblob (Option.filter_eq_some_iff.1 houter).1
    rw [Nat.zero_add] at hcontent
    rw [parseNegResp_token houter]
    exact placed_seq hcontent negRespField_token_eq

/-- **The position is that of the token.** -/
theorem placed_tokenAt (blob : Bytes) : Placed blob (tokenAt blob) (classify blob).token := by
  have hwhole : Placed blob (some 0) blob := List.prefix_rfl
  rw [tokenAt, classify]
  by_cases hinit : blob.head? = some 0x60
  · rw [if_pos hinit, if_pos hinit]
    cases ht : tlv blob with
    | none => exact hwhole
    | some t =>
      dsimp only
      cases hchildren : children t.val with
      | nil => exact hwhole
      | cons oid more =>
        dsimp only
        by_cases hspnego : oid.tag = 0x06 ∧ oid.val = oidSpnego
        · rw [if_pos hspnego, if_pos hspnego]
          cases more with
          | nil => exact hwhole
          | cons neg more =>
            -- the second child of the outermost element
            have hblob : blob <+: blob.drop 0 := List.prefix_rfl
            have hcontent := prefix_content hblob ht
            rw [Nat.zero_add] at hcontent
            have hall := prefix_contentsAt (n := t.val.length) hcontent
            rw [← children, hchildren] at hall
            exact placed_seq (hall (t.off + oid.len + neg.off, neg) (by simp [contentsAt]))
              negInitField_token
        · rw [if_neg hspnego, if_neg hspnego]
          split_ifs <;> exact hwhole
  · rw [if_neg hinit, if_neg hinit]
    by_cases hresp : blob.head? = some 0xA1
    · rw [if_pos hresp, if_pos hresp]
      exact placed_resp blob
    · rw [if_neg hresp, if_neg hresp]
      split_ifs <;> exact hwhole

end Spnego

/-! ### The first signature -/

namespace Ntlm

/-- The search stops at the first signature. -/
theorem findToken_eq_some_iff {blob : Bytes} {p : ℕ} (h : Spnego.ntlmSig <+: blob.drop p) :
    findToken blob = some (blob.drop p) ↔ ∀ i < p, ¬ Spnego.ntlmSig <+: blob.drop i := by
  induction blob generalizing p with
  | nil =>
    rw [List.drop_nil] at h
    exact absurd (List.prefix_nil.1 h) (by decide)
  | cons b blob ih =>
    rw [findToken]
    by_cases hhere : Spnego.ntlmSig <+: b :: blob
    · rw [if_pos (List.isPrefixOf_iff_prefix.2 hhere)]
      cases p with
      | zero => simp
      | succ p =>
        -- a later suffix is shorter than the blob itself
        refine ⟨fun heq => ?_, fun hnone => absurd hhere (hnone 0 (by omega))⟩
        have hlen := congrArg List.length (Option.some.inj heq)
        rw [List.drop_succ_cons, List.length_cons, List.length_drop] at hlen
        omega
    · rw [if_neg (fun hp => hhere (List.isPrefixOf_iff_prefix.1 hp))]
      cases p with
      | zero => exact absurd h hhere
      | succ p =>
        rw [List.drop_succ_cons] at h ⊢
        rw [ih h]
        constructor
        · intro hbefore i hi
          cases i with
          | zero => exact hhere
          | succ i => exact hbefore i (by omega)
        · intro hbefore i hi
          exact hbefore (i + 1) (by omega)

theorem findToken_self {token : Bytes} (h : Spnego.ntlmSig <+: token) :
    findToken token = some token :=
  (findToken_eq_some_iff (p := 0) h).2 fun i hi => absurd hi (by omega)

/-- The type of a message that is long enough to have one does not depend on what follows it. -/
theorem classify_append {blob token post : Bytes} (hsig : Spnego.ntlmSig <+: token)
    (hfind : findToken blob = some (token ++ post)) (hlen : 12 ≤ token.length) :
    classify blob = classify token := by
  have hslice : slice (token ++ post) 8 12 = slice token 8 12 := by
    rw [slice, slice, if_pos ⟨by omega, by rw [List.length_append]; omega⟩,
      if_pos ⟨by omega, hlen⟩, List.take_append_of_le_length hlen]
  rw [classify, classify, hfind, findToken_self hsig]
  dsimp only
  rw [hslice]

end Ntlm

/-! ### The fields of a message, whatever follows it -/

namespace Rdr

variable {α β : Type}

/-- What `p` reads from some bytes, `q` reads when `x` follows them. -/
def Follows (x : Bytes) (p q : Rdr α) : Prop :=
  ∀ b a r, p b = some (a, r) → q (b ++ x) = some (a, r ++ x)

variable {x : Bytes}

theorem Follows.bind {p q : Rdr α} {k l : α → Rdr β} (hp : Follows x p q)
    (hk : ∀ a, Follows x (k a) (l a)) : Follows x (p >>= k) (q >>= l) := by
  intro b y r h
  obtain ⟨a, r', ha, hy⟩ := bind_eq_some.1 h
  exact bind_eq_some.2 ⟨a, r' ++ x, hp b a r' ha, hk a r' y r hy⟩

theorem follows_pure (a : α) : Follows x (pure a) (pure a) := by
  intro b a' r h
  obtain ⟨rfl, rfl⟩ := Prod.mk.inj (Option.some.inj h)
  rfl

theorem follows_take (n : ℕ) : Follows x (take n) (take n) := by
  intro b a r h
  unfold take at h ⊢
  split_ifs at h with hn
  obtain ⟨rfl, rfl⟩ := Prod.mk.inj (Option.some.inj h)
  have hn' : n ≤ (b ++ x).length := by
    rw [List.length_append]
    omega
  rw [if_pos hn', List.take_append_of_le_length hn, List.drop_append_of_le_length hn]

theorem follows_fail (q : Rdr α) : Follows x fail q := by
  intro b a r h
  exact absurd h (by simp [fail])

theorem follows_u16 : Follows x u16 u16 := (follows_take 2).bind fun _ => follows_pure _
theorem follows_u32 : Follows x u32 u32 := (follows_take 4).bind fun _ => follows_pure _
theorem follows_skip (n : ℕ) : Follows x (skip n) (skip n) :=
  (follows_take n).bind fun _ => follows_pure _

theorem follows_get (b : Bytes) (i j : ℕ) : Follows x (get b i j) (get (b ++ x) i j) := by
  intro c a r h
  obtain ⟨s, hs, heq⟩ := Option.map_eq_some_iff.1 h
  obtain ⟨rfl, rfl⟩ := Prod.mk.inj heq
  unfold slice at hs
  split_ifs at hs with hij
  have hij' : i ≤ j ∧ j ≤ (b ++ x).length := by
    rw [List.length_append]
    omega
  refine Option.map_eq_some_iff.2 ⟨s, ?_, rfl⟩
  rw [slice, if_pos hij', List.take_append_of_le_length hij.2]
  exact hs

end Rdr

namespace Ntlm

open Rdr

theorem follows_field (tok x : Bytes) : Follows x (field tok) (field (tok ++ x)) := by
  refine follows_u16.bind fun len => follows_u16.bind fun _ => follows_u32.bind fun off => ?_
  by_cases hlen : len = 0
  · rw [if_pos hlen, if_pos hlen]
    exact follows_pure _
  · rw [if_neg hlen, if_neg hlen]
    exact follows_get tok _ _

theorem follows_authenticateFields (tok x : Bytes) :
    Follows x (authenticateFields tok) (authenticateFields (tok ++ x)) := by
  refine (follows_skip 8).bind fun _ => follows_u32.bind fun type => ?_
  by_cases htype : type ≠ 3
  · rw [if_pos htype]
    exact follows_fail _
  · rw [if_neg htype, if_neg htype]
    have hfield := follows_field tok x
    exact hfield.bind fun _ => hfield.bind fun _ => hfield.bind fun _ => hfield.bind fun _ =>
      hfield.bind fun _ => hfield.bind fun _ => follows_u32.bind fun _ => follows_pure _

/-- The fields of a message do not depend on what follows it. -/
theorem parseAuthenticate_append {blob token post : Bytes} (hsig : Spnego.ntlmSig <+: token)
    (hfind : findToken blob = some (token ++ post)) {a : Authenticate}
    (h : parseAuthenticate token = some a) : parseAuthenticate blob = some a := by
  rw [parseAuthenticate, findToken_self hsig] at h
  obtain ⟨⟨a', r⟩, hread, rfl⟩ := Option.map_eq_some_iff.1 h
  rw [parseAuthenticate, hfind]
  exact Option.map_eq_some_iff.2
    ⟨(a', r ++ post), follows_authenticateFields token post token a' r hread, rfl⟩

/-- What is parsed as an AUTHENTICATE is classified as one. -/
theorem classify_of_parseAuthenticate {blob : Bytes} {a : Authenticate}
    (h : parseAuthenticate blob = some a) : classify blob = .authenticate := by
  unfold parseAuthenticate at h
  unfold classify
  cases hfind : findToken blob with
  | none => simp [hfind] at h
  | some tok =>
    rw [hfind] at h
    obtain ⟨⟨a, r⟩, hread, -⟩ := Option.map_eq_some_iff.1 h
    obtain ⟨_, hrest⟩ := (reads_skip 8).peel hread
    obtain ⟨type, r₁, htype, hrest⟩ := Rdr.bind_eq_some.1 hrest
    obtain ⟨s, r₂, hs, hr⟩ := Rdr.bind_eq_some.1 htype
    obtain ⟨rfl, -⟩ := Prod.mk.inj (Option.some.inj hr)
    unfold take at hs
    split_ifs at hs with hlen
    obtain ⟨rfl, -⟩ := Prod.mk.inj (Option.some.inj hs)
    rw [List.length_drop] at hlen
    have hslice : slice tok 8 12 = some ((tok.drop 8).take 4) := by
      rw [slice, if_pos ⟨by omega, by omega⟩, List.drop_take]
    split_ifs at hrest with hthree
    · exact absurd hrest (by simp [Rdr.fail])
    · -- the word has four bytes, so no other number is read as 3
      have hlt : leNat ((tok.drop 8).take 4) < 2 ^ 32 := by
        have hbytes := leNat_lt ((tok.drop 8).take 4)
        rwa [List.length_take_of_le (by rw [List.length_drop]; omega)] at hbytes
      have hnat := congrArg UInt32.toNat (not_not.1 hthree)
      rw [UInt32.toNat_ofNat', Nat.mod_eq_of_lt hlt] at hnat
      simp [hslice, hnat]

/-- The token has its type and, if it is an AUTHENTICATE, its fields within itself. -/
def Complete (token : Bytes) : Prop :=
  12 ≤ token.length ∧ (classify token = .authenticate → (parseAuthenticate token).isSome)

instance (token : Bytes) : Decidable (Complete token) := inferInstanceAs (Decidable (_ ∧ _))

/-- The NTLM code acts on the classified token: it finds the message at the token's position, and
the type and the fields that it reads are those of the token. -/
structure SeesToken (blob : Bytes) (p : ℕ) : Prop where
  found : findToken blob = some (blob.drop p)
  type : classify blob = classify (Spnego.classify blob).token
  fields : parseAuthenticate blob = parseAuthenticate (Spnego.classify blob).token

end Ntlm

end RocketSmbd
