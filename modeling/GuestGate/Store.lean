import GuestGate.Memory

/-!
# The store

The memories of all modules in one table, which only grows. The embedder may hold a memory, for
reading any number of times or for writing once; a held memory is in use for those who want it
otherwise.
-/

namespace GuestGate

inductive Access where
  | reading
  | writing
deriving DecidableEq, Repr

inductive Hold where
  | readers (count : Nat)
  | writer
deriving DecidableEq, Repr

namespace Hold

def free : Hold := .readers 0

def admits : Hold → Access → Bool
  | .readers _, .reading => true
  | .readers count, .writing => count == 0
  | .writer, _ => false

/-- The hold with one more access added to it. -/
def extend : Hold → Access → Hold
  | .readers count, .reading => .readers (count + 1)
  | _, _ => .writer

end Hold

structure Cell where
  memory : Memory
  hold : Hold := .free
deriving DecidableEq, Repr

structure Store where
  cells : Array Cell := #[]
deriving DecidableEq, Repr

namespace Store

def size (s : Store) : Nat := s.cells.size

def allocate (s : Store) (m : Memory) : Store × MemoryAddress :=
  (⟨s.cells.push { memory := m }⟩, ⟨s.cells.size⟩)

def cell (s : Store) (a : MemoryAddress) : Except Fault Cell :=
  match s.cells[a.index]? with
  | some c => .ok c
  | none => .error (.memoryNotFound a)

def inUse : Access → Fault
  | .reading => .memory .heldForWriting
  | .writing => .memory .held

/-- The memory at an address, if nobody holds it in a way that excludes the access. -/
def memory (s : Store) (a : MemoryAddress) (access : Access) : Except Fault Memory :=
  match s.cell a with
  | .error f => .error f
  | .ok c => if c.hold.admits access then .ok c.memory else .error (inUse access)

def replace (s : Store) (a : MemoryAddress) (m : Memory) : Store :=
  ⟨s.cells.modify a.index fun c => { c with memory := m }⟩

def hold (s : Store) (a : MemoryAddress) (access : Access) : Store :=
  ⟨s.cells.modify a.index fun c => { c with hold := c.hold.extend access }⟩

def releaseAll (s : Store) : Store := ⟨s.cells.map fun c => { c with hold := .free }⟩

theorem size_replace (s : Store) (a : MemoryAddress) (m : Memory) :
    (s.replace a m).size = s.size := by simp [size, replace]

theorem getElem?_replace (s : Store) (a : MemoryAddress) (m : Memory) (i : Nat) :
    (s.replace a m).cells[i]? =
      if a.index = i then s.cells[i]?.map fun c => { c with memory := m } else s.cells[i]? := by
  simp [replace, Array.getElem?_modify]

end Store

end GuestGate
