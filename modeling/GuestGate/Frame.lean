import GuestGate.Fault

/-!
# Modules and frames

A module knows its memories by local index. A frame is one call in flight: the module it runs in,
and the height of the operand stack when it began.
-/

namespace GuestGate

structure GuestModule where
  name : String
  memories : List MemoryAddress
deriving DecidableEq, Repr

def GuestModule.memoryAt (m : GuestModule) (index : Nat) : Except Fault MemoryAddress :=
  match m.memories[index]? with
  | some a => .ok a
  | none => .error .noMemory

structure Frame where
  guestModule : GuestModule
  function : UInt32
  locals : List Value
  base : Nat := 0
deriving DecidableEq, Repr

end GuestGate
