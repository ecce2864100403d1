import RocketSmbd.Codec
import RocketSmbd.Safety.Completions
import RocketSmbd.Smb2.OutputBuffer

/-!
# The encoding of change notifications

The data of a successful CHANGE_NOTIFY completion is a chain of FILE_NOTIFY_INFORMATION records.
The server lays the records out in one pass and fills in their NextEntryOffsets in a second one;
the model writes them in one go (`notifyEntries`), and `notifyData_eq` says that this is the same.
A client that takes the data from where the response says it is and follows the NextEntryOffsets
finds the events again.
-/

namespace RocketSmbd

open ByteString Linked

/-! ### Records -/

/-- One FILE_NOTIFY_INFORMATION record as the first pass writes it. -/
def notifyRecord (e : UInt32 × Str) : Bytes :=
  let n16 := utf16le e.2
  p32 0 ++ p32 e.1 ++ p32 (UInt32.ofNat n16.length) ++ n16

/-- The data as `build_notify_final` writes it: the records 4-aligned, then the offsets. -/
def notifyData (events : List (UInt32 × Str)) : Bytes :=
  let (data, entryStarts) := pack 4 (events.map notifyRecord)
  stamp 0 entryStarts data

/-- What a client reads in a record: the Action, and FileNameLength bytes of FileName. -/
def readNotifyRecord (r : Bytes) : UInt32 × Str :=
  (UInt32.ofNat (leNat (r.extract 4 8)),
    fromUtf16le (r.extract 12 (12 + leNat (r.extract 8 12))))

theorem length_notifyRecord (e : UInt32 × Str) :
    (notifyRecord e).length = 12 + (utf16le e.2).length := by
  simp only [notifyRecord, List.length_append, p32_length]

theorem link_notifyRecord (e : UInt32 × Str) :
    let len := 12 + (utf16le e.2).length
    let pad := (4 - len % 4) % 4
    link 0 4 (notifyRecord e) = p32 (UInt32.ofNat (len + pad)) ++ p32 e.1 ++
      p32 (UInt32.ofNat (utf16le e.2).length) ++ utf16le e.2 ++ zeros pad := by
  intro len pad
  have hsplit : notifyRecord e = p32 0 ++
      (p32 e.1 ++ p32 (UInt32.ofNat (utf16le e.2).length) ++ utf16le e.2) := by
    simp only [notifyRecord, List.append_assoc]
  have hlen : (padTo 4 (notifyRecord e)).length = len + pad := by
    rw [padTo, List.length_append, zeros_length, length_notifyRecord]
  rw [p32_ofNat, ← hlen, hsplit, link_head _ _ (p32_length 0), ← hsplit, length_notifyRecord]
  simp only [List.append_assoc]
  rfl

theorem notifyEntries_eq_chain (events : List (UInt32 × Str)) :
    notifyEntries events = (chain 0 4 (events.map notifyRecord)).flatten := by
  induction events with
  | nil => rfl
  | cons e events ih =>
    obtain ⟨action, name⟩ := e
    cases events with
    | nil => simp [notifyEntries, chain, notifyRecord]
    | cons e' more =>
      have hchain : chain 0 4 (((action, name) :: e' :: more).map notifyRecord) =
          link 0 4 (notifyRecord (action, name)) :: chain 0 4 ((e' :: more).map notifyRecord) :=
        rfl
      rw [hchain, List.flatten_cons, ← ih, link_notifyRecord]
      rfl

/-- The two passes of the server write the records that `notifyEntries` writes. -/
theorem notifyData_eq (events : List (UInt32 × Str)) :
    notifyData events = notifyEntries events := by
  rw [notifyEntries_eq_chain]
  refine stamp_pack (by decide) fun b hb => ?_
  obtain ⟨e, -, rfl⟩ := List.mem_map.1 hb
  rw [length_notifyRecord]
  omega

/-! ### Reading the records back -/

theorem extract_notifyRecord (e : UInt32 × Str) : (notifyRecord e).extract 4 8 = p32 e.1 ∧
    (notifyRecord e).extract 8 12 = p32 (UInt32.ofNat (utf16le e.2).length) := by
  simp [notifyRecord, p32, leBytes]

theorem readNotifyRecord_notifyRecord {e : UInt32 × Str}
    (hlen : (utf16le e.2).length < 256 ^ 4) : readNotifyRecord (notifyRecord e) = e := by
  obtain ⟨haction, hsize⟩ := extract_notifyRecord e
  have hname : (notifyRecord e).extract 12 (12 + (utf16le e.2).length) = utf16le e.2 :=
    extract_field (a := p32 0 ++ p32 e.1 ++ p32 (UInt32.ofNat (utf16le e.2).length)) (b := [])
      (by simp [notifyRecord]) rfl rfl
  rw [readNotifyRecord, haction, hsize, p32_ofNat, leNat_leBytes, Nat.mod_eq_of_lt hlen, hname,
    ofNat_leNat_p32, fromUtf16le_utf16le]

theorem readNotifyRecord_link {e : UInt32 × Str} (hlen : (utf16le e.2).length < 256 ^ 4) :
    readNotifyRecord (link 0 4 (notifyRecord e)) = readNotifyRecord (notifyRecord e) := by
  have hrec := length_notifyRecord e
  have hsize : leNat ((notifyRecord e).extract 8 12) = (utf16le e.2).length := by
    rw [(extract_notifyRecord e).2, p32_ofNat, leNat_leBytes, Nat.mod_eq_of_lt hlen]
  have hsame : ∀ i j, 4 ≤ i → j ≤ 12 + (utf16le e.2).length →
      (link 0 4 (notifyRecord e)).extract i j = (notifyRecord e).extract i j :=
    fun i j hi hj => extract_link hi (by omega) (by omega)
  rw [readNotifyRecord, readNotifyRecord, hsame 8 12 (by omega) (by omega), hsize,
    hsame 4 8 (by omega) (by omega), hsame 12 _ (by omega) le_rfl]

/-- Following the NextEntryOffsets of the data gives the events. -/
theorem notifyEntries_read {events : List (UInt32 × Str)} (hne : events ≠ [])
    (hlt : (notifyEntries events).length < 256 ^ 4) :
    ∃ records, IsChain 0 4 (notifyEntries events) records ∧
      records.map readNotifyRecord = events := by
  rw [notifyEntries_eq_chain] at hlt ⊢
  have hrec : ∀ b ∈ events.map notifyRecord, 0 + 4 ≤ b.length ∧ distance 0 b = 0 := by
    intro b hb
    obtain ⟨e, -, rfl⟩ := List.mem_map.1 hb
    refine ⟨by rw [length_notifyRecord]; omega, ?_⟩
    rw [notifyRecord, List.append_assoc, List.append_assoc]
    exact distance_p32_zero _
  refine ⟨_, isChain_chain (by decide) (by simpa using hne) hrec hlt, ?_⟩
  have hname : ∀ e ∈ events, (utf16le e.2).length < 256 ^ 4 := by
    intro e he
    have hle := length_le_chain (o := 0) (a := 4) (fun b hb => (hrec b hb).1)
      (List.mem_map_of_mem he)
    rw [length_notifyRecord] at hle
    omega
  rw [map_chain readNotifyRecord, List.map_map]
  · refine (List.map_congr_left fun e he => ?_).trans (List.map_id _)
    exact readNotifyRecord_notifyRecord (hname e he)
  · intro b hb
    obtain ⟨e, he, rfl⟩ := List.mem_map.1 hb
    exact readNotifyRecord_link (hname e he)

/-! ### The message around the data -/

variable (cr : Crypto)

/-- Signing a completion touches neither its status nor its body. -/
theorem finalizeAsync_body (channels : FinMap UInt64 ChannelState) (info : AsyncMeta)
    {hdr : Bytes} (body : Bytes) (hhdr : hdr.length = 64) :
    ∃ hdr', hdr'.length = 64 ∧ respStatus (hdr' ++ body) = respStatus (hdr ++ body) ∧
      finalizeAsync cr channels info (zeros 4 ++ (hdr ++ body)) 4 =
        nbtPrefix (hdr' ++ body).length ++ (hdr' ++ body) := by
  have hlen : 64 ≤ (hdr ++ body).length := by
    rw [List.length_append]
    omega
  obtain ⟨msg, rfl | ⟨sc, rfl⟩, hframe⟩ := finalizeAsync_cases cr channels info hlen
  · exact ⟨hdr, hhdr, rfl, hframe⟩
  · have hbody : (signed cr sc (hdr ++ body)).drop 64 = body := by
      rw [drop_signed cr sc hlen, ← hhdr, List.drop_left]
    have hsplit : (signed cr sc (hdr ++ body)).take 64 ++ body = signed cr sc (hdr ++ body) := by
      nth_rewrite 2 [← hbody]
      exact List.take_append_drop ..
    refine ⟨(signed cr sc (hdr ++ body)).take 64, ?_, ?_, ?_⟩
    · rw [List.length_take, signed_length cr sc hlen]
      omega
    · rw [hsplit, respStatus, extract_signed_head cr sc hlen (by decide), respStatus]
    · rw [hsplit, hframe]

section

variable (info : AsyncMeta) {st : UInt32} {events : List (UInt32 × Str)} {outLen : UInt32}

theorem notifyFinalMsg_success (hst : st = Status.success) (hne : events ≠ [])
    (hfits : (notifyEntries events).length ≤ outLen.toNat) :
    notifyFinalMsg info st events outLen =
      zeros 4 ++ (respHdrAsync info Status.success 0 cmdChangeNotify ++
        outputBody (notifyEntries events)) := by
  subst hst
  have hsome : ¬ events.isEmpty = true := by simpa using hne
  unfold notifyFinalMsg
  dsimp only
  rw [if_pos rfl, if_pos ⟨rfl, hsome, hfits⟩]
  simp only [beginRespAsync, outputBody, List.append_assoc]

theorem notifyFinalMsg_failure
    (h : ¬ (st = Status.success ∧ events ≠ [] ∧ (notifyEntries events).length ≤ outLen.toNat)) :
    notifyFinalMsg info st events outLen =
      zeros 4 ++ (respHdrAsync info (if st = Status.success then Status.notifyEnumDir else st) 0
        cmdChangeNotify ++ errBody) := by
  unfold notifyFinalMsg
  dsimp only
  rw [if_neg]
  · exact List.append_assoc ..
  · rintro ⟨hst, hsome, hfits⟩
    rw [if_pos hst] at hfits
    exact h ⟨hst, by simpa using hsome, hfits⟩

end

/-- What goes out is the clear completion, or its message sealed. -/
theorem buildNotifyFinal_frame (pc : ProtoConn) (info : AsyncMeta) (st : UInt32)
    (events : List (UInt32 × Str)) (outLen : UInt32) :
    let clear := finalizeAsync cr pc.channels info (notifyFinalMsg info st events outLen) 4
    (buildNotifyFinal cr pc info st events outLen).2 = clear ∨
      ∃ ch enc, pc.channels.lookup info.sessionId = some ch ∧ ch.encrypt = true ∧
        ch.enc = some enc ∧ (buildNotifyFinal cr pc info st events outLen).2 =
          (wrapTransform cr (clear.drop 4) enc info.sessionId []).2 := by
  intro clear
  unfold buildNotifyFinal
  dsimp only
  cases hch : pc.channels.lookup info.sessionId with
  | none => exact Or.inl rfl
  | some ch =>
    dsimp only
    cases hencrypt : ch.encrypt with
    | false => exact Or.inl rfl
    | true =>
      cases henc : ch.enc with
      | none => exact Or.inl rfl
      | some enc => exact Or.inr ⟨ch, enc, rfl, hencrypt, henc, rfl⟩

/-- **Change notifications arrive as they happened.**  The completion is a message that is framed
or, on an encrypting channel, sealed.  Its status is success exactly when there are events and
their encoding fits the client's buffer; a success without that becomes STATUS_NOTIFY_ENUM_DIR.  In
a successful one the advertised data fits, and following the NextEntryOffsets visits 4-aligned
records, zero in the last, that read as exactly the events. -/
theorem notify_encoding (pc : ProtoConn) (info : AsyncMeta) (st : UInt32)
    (events : List (UInt32 × Str)) (outLen : UInt32) :
    ∃ msg : Bytes,
      ((buildNotifyFinal cr pc info st events outLen).2 = nbtPrefix msg.length ++ msg ∨
        ∃ ch enc, pc.channels.lookup info.sessionId = some ch ∧ ch.encrypt = true ∧
          ch.enc = some enc ∧ (buildNotifyFinal cr pc info st events outLen).2 =
            (wrapTransform cr msg enc info.sessionId []).2) ∧
      respStatus msg =
        (if st = Status.success then
          if events ≠ [] ∧ (notifyData events).length ≤ outLen.toNat then Status.success
          else Status.notifyEnumDir
        else st) ∧
      (respStatus msg = Status.success →
        (respData msg).length ≤ outLen.toNat ∧
          ∃ records, IsChain 0 4 (respData msg) records ∧
            records.map readNotifyRecord = events) := by
  rw [notifyData_eq]
  have hframe := buildNotifyFinal_frame cr pc info st events outLen
  by_cases h : st = Status.success ∧ events ≠ [] ∧ (notifyEntries events).length ≤ outLen.toNat
  · obtain ⟨hst, hne, hfits⟩ := h
    have hlt : (notifyEntries events).length < 256 ^ 4 := hfits.trans_lt outLen.toNat_lt
    obtain ⟨hdr, hhdr, hstatus, hclear⟩ := finalizeAsync_body cr pc.channels info
      (outputBody (notifyEntries events))
      (respHdrAsync_length info Status.success 0 cmdChangeNotify)
    rw [respStatus_respHdrAsync] at hstatus
    rw [notifyFinalMsg_success info hst hne hfits, hclear] at hframe
    refine ⟨hdr ++ outputBody (notifyEntries events), hframe, ?_, fun _ => ?_⟩
    · rw [if_pos hst, if_pos ⟨hne, hfits⟩, hstatus]
    · rw [respData_outputBody _ hhdr hlt]
      exact ⟨hfits, notifyEntries_read hne hlt⟩
  · obtain ⟨hdr, hhdr, hstatus, hclear⟩ := finalizeAsync_body cr pc.channels info errBody
      (respHdrAsync_length info (if st = Status.success then Status.notifyEnumDir else st) 0
        cmdChangeNotify)
    rw [respStatus_respHdrAsync] at hstatus
    rw [notifyFinalMsg_failure info h, hclear] at hframe
    have hval : respStatus (hdr ++ errBody) =
        (if st = Status.success then
          if events ≠ [] ∧ (notifyEntries events).length ≤ outLen.toNat then Status.success
          else Status.notifyEnumDir
        else st) := by
      rw [hstatus]
      split_ifs with hst hfits
      · exact absurd ⟨hst, hfits⟩ h
      · rfl
      · rfl
    refine ⟨hdr ++ errBody, hframe, hval, fun hsuccess => ?_⟩
    rw [hstatus] at hsuccess
    split_ifs at hsuccess with hst
    · exact absurd hsuccess (by decide)
    · exact absurd hsuccess hst

end RocketSmbd
