import GuestGate.Bytes
import GuestGate.Fault
import GuestGate.Text.Hex

/-!
# Socket addresses

An address on its way between guest and host lies in a buffer of fixed capacity, with a length
beside it that the host may set to any number.
-/

namespace GuestGate

def SocketAddress.capacity : Nat := 128

structure SocketAddress where
  storage : Array UInt8
  length : UInt32
  size_storage : storage.size = SocketAddress.capacity
deriving DecidableEq, Repr

/-- The part of an address that counts: its length and its bytes inside the buffer. -/
structure ShownAddress where
  length : UInt32
  bytes : List UInt8
deriving DecidableEq, Repr

def ShownAddress.text (a : ShownAddress) : String :=
  s!"SockAddrBuf \x7b len: {a.length.toNat}, bytes: \"" ++ String.ofList (Hex.bytes a.bytes) ++
    "\" \x7d"

namespace SocketAddress

def zeros (length : UInt32) : SocketAddress := ⟨.replicate capacity 0, length, by simp⟩

/-- Stores bytes from the start of the buffer; those past its end are dropped. -/
def fill (a : SocketAddress) (bytes : List UInt8) : SocketAddress :=
  ⟨Bytes.overwrite a.storage 0 bytes, a.length, by rw [Bytes.size_overwrite, a.size_storage]⟩

def withLength (a : SocketAddress) (length : UInt32) : SocketAddress := { a with length }

def ofGuest (bytes : List UInt8) : Except Fault SocketAddress :=
  if capacity < bytes.length then .error (.invalidLength bytes.length)
  else .ok ((zeros (UInt32.ofNat bytes.length)).fill bytes)

/-- An empty buffer that offers the host as much of its capacity as the guest has room for. -/
def forOutput (room : UInt32) : SocketAddress := zeros (UInt32.ofNat (min room.toNat capacity))

/-- The first `length` bytes of the buffer, or all of it. -/
def bytes (a : SocketAddress) : List UInt8 := a.storage.toList.take a.length.toNat

def shown (a : SocketAddress) : ShownAddress := ⟨a.length, a.bytes⟩

theorem length_bytes (a : SocketAddress) : a.bytes.length = min a.length.toNat capacity := by
  simp [bytes, a.size_storage]

theorem length_forOutput (room : UInt32) :
    (forOutput room).length.toNat = min room.toNat capacity := by
  have : min room.toNat capacity ≤ capacity := Nat.min_le_right ..
  have hc : capacity < UInt32.size := by decide
  simp only [forOutput, zeros, UInt32.toNat_ofNat']
  exact Nat.mod_eq_of_lt (Nat.lt_of_le_of_lt this hc)

end SocketAddress

end GuestGate
