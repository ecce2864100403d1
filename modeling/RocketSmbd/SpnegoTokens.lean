import RocketSmbd.Ntlm

/-!
# Security tokens survive their wrapping (`spnego.rs`, `ntlm.rs`)

The DER reader takes one element apart as the writer put it together, in each of the three length
forms; a constructed element falls into the elements it was written from; and `classify` finds in a
`NegTokenResp` and in a `NegTokenInit` the mechanism and the token that were wrapped.
-/

namespace RocketSmbd

open ByteString

namespace Spnego

variable {content : Bytes} {inc : Incoming} {token : Bytes}

/-! ### One element -/

/-- The header of an element with a content of `n` bytes. -/
def derHdr (tag : UInt8) (n : ℕ) : Bytes :=
  if n < 128 then [tag, UInt8.ofNat n]
  else if n < 256 then [tag, 0x81, UInt8.ofNat n]
  else [tag, 0x82, UInt8.ofNat (n / 256), UInt8.ofNat (n % 256)]

variable (tag : UInt8)

theorem der_eq (content : Bytes) :
    der tag content = derHdr tag content.length ++ content := by
  unfold der derHdr
  dsimp only
  split_ifs <;> rfl

/-- The element that an encoding is read as. -/
def elem (tag : UInt8) (content : Bytes) : Tlv := ⟨tag, content, (der tag content).length⟩

theorem tlvBody_append (hdr content rest : Bytes) (tag : UInt8) :
    tlvBody (hdr ++ content ++ rest) tag hdr.length content.length =
      some ⟨tag, content, hdr.length + content.length⟩ := by
  have hlen : hdr.length + content.length = (hdr ++ content).length := by simp
  have hfits : ¬ hdr.length + content.length > (hdr ++ content ++ rest).length := by
    simp only [List.length_append]
    omega
  rw [tlvBody, if_neg hfits, hlen, List.take_left, List.drop_left]

/-- **An element is read back, whatever follows it.** -/
theorem tlv_der (h : content.length < 65536) (rest : Bytes) :
    tlv (der tag content ++ rest) = some (elem tag content) := by
  have hbody := tlvBody_append (derHdr tag content.length) content rest tag
  have helem : elem tag content =
      ⟨tag, content, (derHdr tag content.length).length + content.length⟩ := by
    rw [elem, der_eq, List.length_append]
  rw [der_eq, helem, ← hbody]
  have hbyte : ∀ n, n < 256 → (UInt8.ofNat n).toNat = n := fun n hn => by
    rw [UInt8.toNat_ofNat', Nat.mod_eq_of_lt hn]
  -- the three forms of the length
  by_cases hshort : content.length < 128
  · have hform : UInt8.ofNat content.length < 0x80 := by
      rw [UInt8.lt_iff_toNat_lt, hbyte _ (by omega)]
      exact hshort
    have hhdr : derHdr tag content.length = [tag, UInt8.ofNat content.length] := if_pos hshort
    rw [hhdr]
    change (if UInt8.ofNat content.length < 0x80 then _ else _) = _
    rw [if_pos hform, hbyte _ (by omega)]
    rfl
  · by_cases hone : content.length < 256
    · have hhdr : derHdr tag content.length = [tag, 0x81, UInt8.ofNat content.length] := by
        rw [derHdr, if_neg hshort, if_pos hone]
      rw [hhdr]
      change tlvBody _ tag 3 (UInt8.ofNat content.length).toNat = _
      rw [hbyte _ hone]
      rfl
    · have hhdr : derHdr tag content.length =
          [tag, 0x82, UInt8.ofNat (content.length / 256), UInt8.ofNat (content.length % 256)] := by
        rw [derHdr, if_neg hshort, if_neg hone]
      rw [hhdr]
      change tlvBody _ tag 4 ((UInt8.ofNat (content.length / 256)).toNat * 256 +
        (UInt8.ofNat (content.length % 256)).toNat) = _
      rw [hbyte _ (by omega), hbyte _ (by omega), Nat.div_add_mod']
      rfl

theorem tlv_der_self (h : content.length < 65536) :
    tlv (der tag content) = some (elem tag content) := by
  have hrest := tlv_der tag h []
  rwa [List.append_nil] at hrest

theorem length_le_der (content : Bytes) :
    content.length + 2 ≤ (der tag content).length := by
  unfold der
  dsimp only
  split_ifs <;> simp only [List.length_cons] <;> omega

/-- The two-byte form holds a length as long as the element is shorter than 65540 bytes. -/
theorem length_der_lt {tag : UInt8} :
    (der tag content).length < 65540 ↔ content.length < 65536 := by
  unfold der
  dsimp only
  split_ifs <;> simp only [List.length_cons] <;> omega

theorem head_der (content : Bytes) : (der tag content).head? = some tag := by
  unfold der
  dsimp only
  split_ifs <;> rfl

/-! ### Elements one after another -/

/-- The encodings of elements, given by tag and content. -/
def ders (es : List (UInt8 × Bytes)) : Bytes := es.flatMap fun e => der e.1 e.2

section

variable {es : List (UInt8 × Bytes)}

theorem length_le_ders {e : UInt8 × Bytes} (he : e ∈ es) :
    (der e.1 e.2).length ≤ (ders es).length := by
  rw [ders, List.flatMap_def]
  exact (List.sublist_flatten_of_mem
    (List.mem_map_of_mem (f := fun e : UInt8 × Bytes => der e.1 e.2) he)).length_le

theorem childrenUpTo_ders (h : ∀ e ∈ es, e.2.length < 65536) {fuel : ℕ}
    (hfuel : es.length ≤ fuel) : childrenUpTo fuel (ders es) = es.map fun e => elem e.1 e.2 := by
  induction es generalizing fuel with
  | nil => cases fuel <;> rfl
  | cons e es ih =>
    obtain ⟨fuel, rfl⟩ : ∃ f, fuel = f + 1 := ⟨fuel - 1, by
      rw [List.length_cons] at hfuel
      omega⟩
    have hread : tlv (ders (e :: es)) = some (elem e.1 e.2) := tlv_der _ (h e (by simp)) _
    have hdrop : (ders (e :: es)).drop (elem e.1 e.2).len = ders es := List.drop_left
    rw [childrenUpTo, hread]
    dsimp only
    rw [hdrop, ih (fun x hx => h x (by simp [hx])) (by simpa using hfuel), List.map_cons]

/-- A constructed element falls into the elements it was written from. -/
theorem children_ders (h : (ders es).length < 65536) :
    children (ders es) = es.map fun e => elem e.1 e.2 := by
  have hcontents : ∀ e ∈ es, e.2.length < 65536 := by
    intro e he
    have hle := length_le_ders he
    have hcontent := length_le_der e.1 e.2
    omega
  refine childrenUpTo_ders hcontents ?_
  rw [ders, List.length_flatMap]
  calc es.length = (es.map fun _ => 1).sum := by simp
    _ ≤ (es.map fun e => (der e.1 e.2).length).sum := by
      refine List.sum_le_sum fun e _ => ?_
      have := length_le_der e.1 e.2
      omega

end

/-! ### Responses -/

/-- The mechanism of a response that names none is read off its token. -/
def sniff (inc : Incoming) : Incoming :=
  if inc.mech = .unknown then
    if ntlmSig.isPrefixOf inc.token then { inc with mech := .ntlmssp }
    else if inc.token.head? = some 0x60 then { inc with mech := .krb5 }
    else inc
  else inc

theorem sniff_of_named (h : inc.mech ≠ .unknown) : sniff inc = inc := if_neg h

/-- A `NegTokenResp` is its fields, one after another. -/
theorem classify_resp {es : List (UInt8 × Bytes)}
    (h : (der 0xA1 (der 0x30 (ders es))).length < 65540) :
    classify (der 0xA1 (der 0x30 (ders es))) =
      sniff ((es.map fun e => elem e.1 e.2).foldl negRespField ⟨.unknown, true, []⟩) := by
  have hseq := length_der_lt.1 h
  have hfields : (ders es).length < 65536 := by
    have := length_le_der 0x30 (ders es)
    omega
  have houter := tlv_der_self 0xA1 hseq
  have hinner : tlv (elem 0xA1 (der 0x30 (ders es))).val = _ := tlv_der_self 0x30 hfields
  have hhead := head_der 0xA1 (der 0x30 (ders es))
  rw [classify, hhead, if_neg (by decide), if_pos rfl, parseNegResp, houter,
    Option.filter_some_pos (by rfl)]
  dsimp only
  rw [hinner]
  change sniff ((children (ders es)).foldl negRespField ⟨.unknown, true, []⟩) = _
  rw [children_ders hfields]

theorem octets_der (h : token.length < 65536) : octets (der 0x04 token) = some token := by
  rw [octets, tlv_der_self 0x04 h]
  rfl

theorem negRespField_mech {oid : Bytes} (h : oid.length < 65536) :
    negRespField inc (elem 0xA1 (derOid oid)) = { inc with mech := Mech.fromOid oid } := by
  have hoid : tlv (elem 0xA1 (derOid oid)).val = _ := tlv_der_self 0x06 h
  rw [negRespField, hoid]
  rfl

theorem negRespField_token (h : token.length < 65536) :
    negRespField inc (elem 0xA2 (der 0x04 token)) = { inc with token := token } := by
  change { inc with token := (octets (der 0x04 token)).getD inc.token } = _
  rw [octets_der h]
  rfl

/-- The fields of a response with a mechanism and a token. -/
def respFields (state : UInt8) (oid token : Bytes) : List (UInt8 × Bytes) :=
  [(0xA0, [0x0A, 0x01, state]), (0xA1, derOid oid), (0xA2, der 0x04 token)]

theorem Mech.fromOid_oid {mech : Mech} (h : mech ≠ .unknown) : Mech.fromOid mech.oid = mech := by
  cases mech with
  | krb5 => decide
  | ntlmssp => decide
  | unknown => exact absurd rfl h

theorem Mech.length_oid (mech : Mech) : mech.oid.length < 65536 := by
  cases mech <;> decide

/-- A response that names its mechanism gives the mechanism and the token. -/
theorem classify_respFields {state : UInt8} {mech : Mech} (hmech : mech ≠ .unknown)
    (h : (der 0xA1 (der 0x30 (ders (respFields state mech.oid token)))).length < 65540) :
    classify (der 0xA1 (der 0x30 (ders (respFields state mech.oid token)))) =
      ⟨mech, true, token⟩ := by
  have htoken : token.length < 65536 := by
    have hseq := length_der_lt.1 h
    have hinner := length_le_der 0x30 (ders (respFields state mech.oid token))
    have hmem : ((0xA2, der 0x04 token) : UInt8 × Bytes) ∈ respFields state mech.oid token := by
      simp [respFields]
    have hfield : (der 0xA2 (der 0x04 token)).length ≤ _ := length_le_ders hmem
    have houter := length_le_der 0xA2 (der 0x04 token)
    have hoctets := length_le_der 0x04 token
    omega
  rw [classify_resp h]
  change sniff (negRespField (negRespField ⟨.unknown, true, []⟩ (elem 0xA1 (derOid mech.oid)))
    (elem 0xA2 (der 0x04 token))) = _
  rw [negRespField_mech mech.length_oid, negRespField_token htoken, Mech.fromOid_oid hmech]
  exact sniff_of_named hmech

theorem classify_negResp {state : UInt8} {mech : Mech} (hmech : mech ≠ .unknown)
    (h : (negResp state mech token).length < 65540) :
    classify (negResp state mech token) = ⟨mech, true, token⟩ := by
  have hoid : mech.oid.isEmpty = false := by
    cases mech with
    | krb5 => rfl
    | ntlmssp => rfl
    | unknown => exact absurd rfl hmech
  cases token with
  | nil =>
    have heq : negResp state mech [] = der 0xA1 (der 0x30 (ders
        [(0xA0, [0x0A, 0x01, state]), (0xA1, derOid mech.oid)])) := by
      simp [negResp, hoid, ders]
    rw [heq] at h ⊢
    rw [classify_resp h]
    change sniff (negRespField ⟨.unknown, true, []⟩ (elem 0xA1 (derOid mech.oid))) = _
    rw [negRespField_mech mech.length_oid, Mech.fromOid_oid hmech]
    exact sniff_of_named hmech
  | cons b token =>
    have heq : negResp state mech (b :: token) =
        der 0xA1 (der 0x30 (ders (respFields state mech.oid (b :: token)))) := by
      simp [negResp, hoid, ders, respFields]
    rw [heq] at h ⊢
    exact classify_respFields hmech h

theorem spnegoWrapChallenge_eq (token : Bytes) : Ntlm.spnegoWrapChallenge token =
    der 0xA1 (der 0x30 (ders (respFields 0x01 (Mech.oid .ntlmssp) token))) := by
  simp [Ntlm.spnegoWrapChallenge, ders, respFields, Mech.oid, derOid]

/-! ### Initial tokens -/

/-- The fields of a `NegTokenInit`: the mechanisms, the request flags and the MIC if they are sent,
and the token of the mechanism preferred. -/
def initFields (oids : List Bytes) (reqFlags : Option Bytes) (token : Bytes)
    (mechListMic : Option Bytes) : List (UInt8 × Bytes) :=
  (0xA0, der 0x30 (oids.flatMap derOid)) :: (reqFlags.map fun f => (0xA1, f)).toList ++
    (0xA2, der 0x04 token) :: (mechListMic.map fun m => (0xA3, m)).toList

/-- A `NegTokenInit` as a client sends it. -/
def negTokenInit (oids : List Bytes) (reqFlags : Option Bytes) (token : Bytes)
    (mechListMic : Option Bytes) : Bytes :=
  der 0x60 (derOid oidSpnego ++
    der 0xA0 (der 0x30 (ders (initFields oids reqFlags token mechListMic))))

/-- The first mechanism of a list of OIDs that is understood. -/
def firstSupported (oids : List Bytes) : Mech :=
  ((oids.map Mech.fromOid).find? (· ≠ .unknown)).getD .unknown

theorem firstMech_der {oids : List Bytes} (h : (der 0x30 (oids.flatMap derOid)).length < 65536) :
    firstMech (der 0x30 (oids.flatMap derOid)) =
      (oids.map Mech.fromOid).find? (· ≠ .unknown) := by
  have hlist : (oids.flatMap derOid).length < 65536 := by
    have := length_le_der 0x30 (oids.flatMap derOid)
    omega
  have heq : oids.flatMap derOid = ders (oids.map fun o => (0x06, o)) := by
    rw [ders, List.flatMap_map]
    rfl
  have hchildren : children (oids.flatMap derOid) = oids.map (elem 0x06) := by
    rw [heq, children_ders (heq ▸ hlist), List.map_map]
    rfl
  rw [firstMech, tlv_der_self 0x30 hlist]
  change (((children (oids.flatMap derOid)).filter (·.tag = 0x06)).map
    (Mech.fromOid ·.val)).find? (· ≠ .unknown) = _
  have hall : (oids.map (elem 0x06)).filter (·.tag = 0x06) = oids.map (elem 0x06) := by
    simp [elem]
  rw [hchildren, hall, List.map_map]
  rfl

/-- A `NegTokenInit` is its fields, one after another. -/
theorem classify_init {es : List (UInt8 × Bytes)}
    (h : (der 0x60 (derOid oidSpnego ++ der 0xA0 (der 0x30 (ders es)))).length < 65540) :
    classify (der 0x60 (derOid oidSpnego ++ der 0xA0 (der 0x30 (ders es)))) =
      (es.map fun e => elem e.1 e.2).foldl negInitField ⟨.unknown, true, []⟩ := by
  have hbody := length_der_lt.1 h
  have heq : derOid oidSpnego ++ der 0xA0 (der 0x30 (ders es)) =
      ders [(0x06, oidSpnego), (0xA0, der 0x30 (ders es))] := by
    simp [ders, derOid]
  have hfields : (ders es).length < 65536 := by
    have hneg := length_le_der 0xA0 (der 0x30 (ders es))
    have hseq := length_le_der 0x30 (ders es)
    rw [List.length_append] at hbody
    omega
  have hchildren : children (derOid oidSpnego ++ der 0xA0 (der 0x30 (ders es))) =
      [elem 0x06 oidSpnego, elem 0xA0 (der 0x30 (ders es))] := by
    rw [heq] at hbody ⊢
    rw [children_ders hbody]
    rfl
  have hhead := head_der 0x60 (derOid oidSpnego ++ der 0xA0 (der 0x30 (ders es)))
  rw [classify, hhead, if_pos rfl, tlv_der_self 0x60 hbody]
  dsimp only [elem]
  rw [hchildren]
  dsimp only [elem]
  rw [if_pos ⟨rfl, rfl⟩, parseNegInit, tlv_der_self 0x30 hfields]
  change (children (ders es)).foldl negInitField ⟨.unknown, true, []⟩ = _
  rw [children_ders hfields]
  rfl

/-- A field that is neither the mechanisms nor the token is skipped. -/
theorem negInitField_other {tag : UInt8} (content : Bytes) (hmech : tag ≠ 0xA0)
    (htoken : tag ≠ 0xA2) : negInitField inc (elem tag content) = inc := by
  rw [negInitField]
  change (if tag = 0xA0 then _ else if tag = 0xA2 then _ else inc) = inc
  rw [if_neg hmech, if_neg htoken]

theorem foldl_option {tag : UInt8} (content : Option Bytes) (hmech : tag ≠ 0xA0)
    (htoken : tag ≠ 0xA2) (inc : Incoming) :
    ((content.map fun c => (tag, c)).toList.map fun e => elem e.1 e.2).foldl negInitField inc =
      inc := by
  cases content with
  | none => rfl
  | some c => exact negInitField_other c hmech htoken

theorem classify_negTokenInit {oids : List Bytes} {reqFlags : Option Bytes}
    {mechListMic : Option Bytes}
    (h : (negTokenInit oids reqFlags token mechListMic).length < 65540) :
    classify (negTokenInit oids reqFlags token mechListMic) =
      ⟨firstSupported oids, true, token⟩ := by
  have hfields : (ders (initFields oids reqFlags token mechListMic)).length < 65532 := by
    have hbody := length_der_lt.1 h
    have hneg := length_le_der 0xA0 (der 0x30 (ders (initFields oids reqFlags token mechListMic)))
    have hseq := length_le_der 0x30 (ders (initFields oids reqFlags token mechListMic))
    rw [List.length_append] at hbody
    omega
  have hlist : (der 0x30 (oids.flatMap derOid)).length < 65536 := by
    have hmem : ((0xA0, der 0x30 (oids.flatMap derOid)) : UInt8 × Bytes) ∈
        initFields oids reqFlags token mechListMic := by simp [initFields]
    have hfield : (der 0xA0 (der 0x30 (oids.flatMap derOid))).length ≤ _ := length_le_ders hmem
    have hcontent := length_le_der 0xA0 (der 0x30 (oids.flatMap derOid))
    omega
  have htoken : token.length < 65536 := by
    have hmem : ((0xA2, der 0x04 token) : UInt8 × Bytes) ∈
        initFields oids reqFlags token mechListMic := by simp [initFields]
    have hfield : (der 0xA2 (der 0x04 token)).length ≤ _ := length_le_ders hmem
    have hcontent := length_le_der 0xA2 (der 0x04 token)
    have hoctets := length_le_der 0x04 token
    omega
  have hmechs : negInitField ⟨.unknown, true, []⟩ (elem 0xA0 (der 0x30 (oids.flatMap derOid))) =
      ⟨firstSupported oids, true, []⟩ := by
    change (⟨(firstMech (der 0x30 (oids.flatMap derOid))).getD .unknown, true, []⟩ : Incoming) = _
    rw [firstMech_der hlist]
    rfl
  have hgiven : ∀ inc : Incoming, negInitField inc (elem 0xA2 (der 0x04 token)) =
      { inc with token := token } := by
    intro inc
    change { inc with token := (octets (der 0x04 token)).getD inc.token } = _
    rw [octets_der htoken]
    rfl
  rw [negTokenInit, classify_init h, initFields, List.map_append, List.map_cons, List.map_cons,
    List.foldl_append, List.foldl_cons, List.foldl_cons, hmechs,
    foldl_option reqFlags (by decide) (by decide), hgiven,
    foldl_option mechListMic (by decide) (by decide)]

/-- **Security tokens survive their wrapping.**  An element is read back whatever follows it; a
response, a wrapped challenge and an initial token whose lengths all fit the two-byte form (the
outermost content is the longest, and it is shorter than 65536 bytes exactly when the whole is
shorter than 65540) give back the mechanism and exactly the token. -/
theorem tokens_survive_wrapping :
    (∀ (tag : UInt8) (content rest : Bytes), content.length < 65536 →
      tlv (der tag content ++ rest) = some ⟨tag, content, (der tag content).length⟩) ∧
    (∀ (state : UInt8) (mech : Mech) (token : Bytes), mech ≠ .unknown →
      (negResp state mech token).length < 65540 →
        classify (negResp state mech token) = ⟨mech, true, token⟩) ∧
    (∀ token : Bytes, (Ntlm.spnegoWrapChallenge token).length < 65540 →
      classify (Ntlm.spnegoWrapChallenge token) = ⟨.ntlmssp, true, token⟩) ∧
    ∀ (oids : List Bytes) (reqFlags : Option Bytes) (token : Bytes) (mechListMic : Option Bytes),
      (negTokenInit oids reqFlags token mechListMic).length < 65540 →
        classify (negTokenInit oids reqFlags token mechListMic) =
          ⟨firstSupported oids, true, token⟩ := by
  refine ⟨fun tag content rest h => tlv_der tag h rest, fun state mech token => classify_negResp,
    ?_,
    fun oids reqFlags token mic => classify_negTokenInit⟩
  intro token h
  rw [spnegoWrapChallenge_eq] at h ⊢
  exact classify_respFields (by decide) h

/-- A client that knows an unsupported mechanism, Kerberos under its old name, and NTLM. -/
theorem tokens_survive_wrapping_init :
    classify (negTokenInit [[0x2A], oidMsKrb5, oidNtlmssp] none [1, 2, 3] none) =
      ⟨.krb5, true, [1, 2, 3]⟩ :=
  tokens_survive_wrapping.2.2.2 _ _ _ _ (by decide)

end Spnego

end RocketSmbd
