import GuestGate.Config.Problem
import GuestGate.Errno
import GuestGate.Memory.Address
import GuestGate.Syscall
import GuestGate.Value

/-!
# Faults

Every way in which an operation can fail, by cause. The wording is in `Fault.message` alone.
-/

namespace GuestGate

inductive MemoryProblem where
  | initialTooLarge (pages : Nat)
  | initialAboveMaximum (pages maximum : Nat)
  | maximumTooLarge (maximum : Nat)
  /-- Wanted for reading while the embedder holds it for writing. -/
  | heldForWriting
  /-- Wanted for writing while the embedder holds it. -/
  | held
  /-- A string for the host with a NUL inside it. -/
  | nulInString (position : Nat)
deriving DecidableEq, Repr

def MemoryProblem.message : MemoryProblem → String
  | .initialTooLarge pages =>
    s!"Initial memory size {pages} pages exceeds maximum {maxPages} pages"
  | .initialAboveMaximum pages maximum =>
    s!"Initial size {pages} pages exceeds specified maximum {maximum} pages"
  | .maximumTooLarge maximum =>
    s!"Maximum size {maximum} pages exceeds system maximum {maxPages} pages"
  | .heldForWriting => "guest memory is in use: RefCell already mutably borrowed"
  | .held => "guest memory is in use: RefCell already borrowed"
  | .nulInString position =>
    s!"invalid guest string: nul byte found in provided data at position: {position}"

/-- Why a host call that was made gives the guest no result. -/
inductive HostFailure where
  | os (errno : Int32)
  | tooWide (value : Int)
deriving DecidableEq, Repr

def HostFailure.message : HostFailure → String
  | .os errno => s!"{Errno.describe errno.toInt} (os error {errno.toInt})"
  | .tooWide value => s!"result {value} does not fit in i32"

inductive Fault where
  | stackUnderflow
  | typeMismatch (expected actual : ValueType)
  | noMemory
  | memoryNotFound (address : MemoryAddress)
  | outOfBounds (offset : UInt32) (length size : Nat)
  | invalidLength (length : Int)
  | memory (problem : MemoryProblem)
  | noFrame
  | syscallFailed (failure : HostFailure)
  | capabilityDenied (syscall : Syscall)
  | unknownSyscall (number : UInt32)
  | invalidConfig (problem : Config.Problem)
deriving DecidableEq, Repr

def Fault.message : Fault → String
  | .stackUnderflow => "Stack underflow"
  | .typeMismatch expected actual =>
    s!"Type mismatch: expected {expected.name}, got {actual.name}"
  | .noMemory => "No memory exists in this module"
  | .memoryNotFound address => s!"Memory {address.text} does not exist in the store"
  | .outOfBounds offset length size =>
    s!"Out of bounds memory access: offset {offset.toNat} + length {length} " ++
      s!"exceeds memory size {size}"
  | .invalidLength length => s!"Invalid length: {length}"
  | .memory problem => s!"Memory error: {problem.message}"
  | .noFrame => "No active call frame"
  | .syscallFailed failure => failure.message
  | .capabilityDenied syscall =>
    s!"Capability denied: {syscall.name} is not permitted by the syscall configuration"
  | .unknownSyscall number => s!"Unknown syscall: {number.toNat}"
  | .invalidConfig problem => s!"Invalid configuration: {problem.message}"

end GuestGate
