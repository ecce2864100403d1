import RocketSmbd.Lib.Packing
import RocketSmbd.Smb2.Fields

/-!
# The output buffer of a response

The bodies of QUERY_DIRECTORY and CHANGE_NOTIFY responses are the same: StructureSize 9, then
OutputBufferOffset and OutputBufferLength, then the data.  `respData` is the client's side of it: it
takes the data from where the two fields say that it is.
-/

namespace RocketSmbd

open ByteString Linked

/-- The data that a response advertises. -/
def respData (resp : Bytes) : Bytes :=
  let off := leNat (resp.extract 66 68)
  let len := leNat (resp.extract 68 72)
  resp.extract off (off + len)

/-- The body that advertises `data` right behind it. -/
def outputBody (data : Bytes) : Bytes :=
  p16 9 ++ p16 72 ++ p32 (UInt32.ofNat data.length) ++ data

theorem respData_outputBody {hdr : Bytes} (data : Bytes) (hhdr : hdr.length = 64)
    (hlen : data.length < 256 ^ 4) : respData (hdr ++ outputBody data) = data := by
  have hoff : (hdr ++ outputBody data).extract 66 68 = p16 72 :=
    extract_field (a := hdr ++ p16 9)
      (b := p32 (UInt32.ofNat data.length) ++ data) (by simp [outputBody]) (by simp [hhdr]) rfl
  have hsize : (hdr ++ outputBody data).extract 68 72 = p32 (UInt32.ofNat data.length) :=
    extract_field (a := hdr ++ p16 9 ++ p16 72) (b := data) (by simp [outputBody])
      (by simp [hhdr]) rfl
  have hval : leNat (p32 (UInt32.ofNat data.length)) = data.length := by
    rw [p32_ofNat, leNat_leBytes, Nat.mod_eq_of_lt hlen]
  rw [respData, hoff, hsize, hval]
  exact extract_field (a := hdr ++ p16 9 ++ p16 72 ++ p32 (UInt32.ofNat data.length)) (b := [])
    (by simp [outputBody]) (by simp [hhdr]; rfl) rfl

/-- A record whose NextEntryOffset is left zero. -/
theorem distance_p32_zero (rest : Bytes) : distance 0 (p32 0 ++ rest) = 0 := rfl

end RocketSmbd
