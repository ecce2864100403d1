import Mathlib.Tactic

/-!
# NT status codes and errno values (`status.rs`)

The NT status codes that go on the wire, the Linux errno values the server tells apart, and the
map from the second to the first.
-/

namespace RocketSmbd

/-- An errno value, as Linux numbers them. -/
abbrev Errno := ℕ

namespace Errno

def eperm : Errno := 1
def enoent : Errno := 2
def eio : Errno := 5
def enxio : Errno := 6
def ebadf : Errno := 9
def eagain : Errno := 11
def enomem : Errno := 12
def eacces : Errno := 13
def ebusy : Errno := 16
def eexist : Errno := 17
def enotdir : Errno := 20
def eisdir : Errno := 21
def einval : Errno := 22
def enfile : Errno := 23
def emfile : Errno := 24
def enospc : Errno := 28
def erofs : Errno := 30
def enotempty : Errno := 39
def edquot : Errno := 122

end Errno

namespace Status

def success : UInt32 := 0x00000000
def pending : UInt32 := 0x00000103
def notifyCleanup : UInt32 := 0x0000010B
def notifyEnumDir : UInt32 := 0x0000010C
def bufferOverflow : UInt32 := 0x80000005
def noMoreFiles : UInt32 := 0x80000006
def unsuccessful : UInt32 := 0xC0000001
def invalidParameter : UInt32 := 0xC000000D
def noSuchFile : UInt32 := 0xC000000F
def invalidDeviceRequest : UInt32 := 0xC0000010
def endOfFile : UInt32 := 0xC0000011
def moreProcessingRequired : UInt32 := 0xC0000016
def accessDenied : UInt32 := 0xC0000022
def requestNotAccepted : UInt32 := 0xC00000D0
def bufferTooSmall : UInt32 := 0xC0000023
def objectNameInvalid : UInt32 := 0xC0000033
def objectNameNotFound : UInt32 := 0xC0000034
def objectNameCollision : UInt32 := 0xC0000035
def objectPathNotFound : UInt32 := 0xC000003A
def sharingViolation : UInt32 := 0xC0000043
def lockNotGranted : UInt32 := 0xC0000055
def logonFailure : UInt32 := 0xC000006D
def timeDifferenceAtDc : UInt32 := 0xC0000133
def diskFull : UInt32 := 0xC000007F
def insufficientResources : UInt32 := 0xC000009A
def ioDeviceError : UInt32 := 0xC0000185
def fileIsADirectory : UInt32 := 0xC00000BA
def notSupported : UInt32 := 0xC00000BB
def badNetworkName : UInt32 := 0xC00000CC
def networkNameDeleted : UInt32 := 0xC00000C9
def directoryNotEmpty : UInt32 := 0xC0000101
def notADirectory : UInt32 := 0xC0000103
def cancelled : UInt32 := 0xC0000120
def fileClosed : UInt32 := 0xC0000128
def userSessionDeleted : UInt32 := 0xC0000203

open Errno in
/-- The closest NT status to an errno. -/
def fromErrno (e : Errno) : UInt32 :=
  if e = enoent then objectNameNotFound
  else if e = enotdir then objectPathNotFound
  else if e = eacces ∨ e = eperm ∨ e = erofs ∨ e = ebadf then accessDenied
  else if e = eexist then objectNameCollision
  else if e = eisdir then fileIsADirectory
  else if e = enotempty then directoryNotEmpty
  else if e = enospc ∨ e = edquot then diskFull
  else if e = enfile ∨ e = emfile ∨ e = enomem then insufficientResources
  else if e = einval then invalidParameter
  else if e = ebusy then sharingViolation
  else if e = eio then ioDeviceError
  else unsuccessful

end Status

end RocketSmbd
