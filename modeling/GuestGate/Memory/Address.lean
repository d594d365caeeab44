/-!
# Pages and memory addresses

A guest's address space is 32 bits wide, in pages of 64 KiB. A memory's address is its place in
the store, which never changes once given out.
-/

namespace GuestGate

def pageSize : Nat := 65536

def maxPages : Nat := 65536

structure MemoryAddress where
  index : Nat
deriving DecidableEq, Repr

def MemoryAddress.text (a : MemoryAddress) : String := s!"MemoryAddr({a.index})"

end GuestGate
