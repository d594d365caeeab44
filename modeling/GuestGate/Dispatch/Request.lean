import GuestGate.Host
import GuestGate.LogEvent
import GuestGate.Stack
import GuestGate.Store

/-!
# Requests

The operands of a syscall are turned into a request: a host call with everything it needs copied
out of guest memory, and the places in guest memory where the answer goes. Every check that can
refuse a call is made here, before anything changes.
-/

namespace GuestGate

structure Machine where
  store : Store
  stack : Stack
deriving DecidableEq, Repr

/-- The first memory of the module that the current frame runs in. -/
def Machine.guestMemory (m : Machine) (access : Access) :
    Except Fault (MemoryAddress × Memory) := do
  let frame ← m.stack.currentFrame
  let a ← frame.guestModule.memoryAt 0
  return (a, ← m.store.memory a access)

/-- A length operand, which counts from zero. -/
def guestLength (n : Int32) : Except Fault Nat :=
  if n < 0 then .error (.invalidLength n.toInt) else .ok n.toInt.toNat

/-- Copies a socket address out of guest memory. -/
def stagedAddress (m : Memory) (pointer length : Int32) : Except Fault SocketAddress := do
  let length ← guestLength length
  let bytes ← m.slice pointer.toUInt32 length
  SocketAddress.ofGuest bytes

/-- Where a peer's address goes: the buffer, its capacity, and the word that holds the length. -/
structure PeerSlot where
  offset : UInt32
  lengthAt : UInt32
  capacity : UInt32
deriving DecidableEq, Repr

namespace PeerSlot

/-- A zero in place of the length's offset asks for no address; every other offset counts. -/
def ofOperands (m : Memory) (offset lengthAt : Int32) : Except Fault (Option PeerSlot) :=
  if lengthAt = 0 then .ok none
  else do
    let capacity ← m.readWord lengthAt.toUInt32
    m.check offset.toUInt32 capacity.toNat
    return some ⟨offset.toUInt32, lengthAt.toUInt32, capacity⟩

/-- The empty buffer for the host to fill in. -/
def buffer (slot : PeerSlot) : SocketAddress := .forOutput slot.capacity

/-- The buffer after the host has filled it in. -/
def filled (slot : PeerSlot) (r : HostReply) : SocketAddress :=
  (slot.buffer.fill r.address).withLength r.addressLength

/-- Copies as much of an address as the guest has room for, and its full length. -/
def writeBack (slot : PeerSlot) (m : Memory) (a : SocketAddress) : Except Fault Memory := do
  let m ← m.write slot.offset (a.bytes.take slot.capacity.toNat)
  m.writeWord slot.lengthAt a.length

end PeerSlot

/-- A range of guest memory that the host writes to. -/
structure DataRange where
  offset : UInt32
  length : Nat
deriving DecidableEq, Repr

/-- The places in one guest memory where the host's answer goes. -/
structure Landing where
  address : MemoryAddress
  memory : Memory
  data : Option DataRange
  peer : Option PeerSlot
deriving DecidableEq, Repr

/-- The memory after the host has stored its data, of which no more than the range arrives. -/
def Landing.received (l : Landing) (r : HostReply) : Except Fault Memory :=
  match l.data with
  | none => .ok l.memory
  | some range => l.memory.write range.offset (r.data.take range.length)

structure Request where
  call : HostCall
  landing : Option Landing := none
deriving DecidableEq, Repr

/-- The steps that requests are made of. Each request is written once over them, whether they are
taken as they are, under a hold on the memory, or by operations that can crash. -/
structure Checks (M : Type → Type) where
  guestMemory : Access → M (MemoryAddress × Memory)
  guestLength : Int32 → M Nat
  decode : Memory → UInt32 → UInt32 → UInt32 → M ExecArgs
  stagedAddress : Memory → Int32 → Int32 → M SocketAddress
  peerSlot : Memory → Int32 → Int32 → M (Option PeerSlot)
  slice : Memory → UInt32 → Nat → M (List UInt8)
  check : Memory → UInt32 → Nat → M Unit

namespace Checks

/-- The steps as they are, on a machine. -/
def plain (m : Machine) : Checks (Except Fault) where
  guestMemory := m.guestMemory
  guestLength := GuestGate.guestLength
  decode := ExecArgs.decode
  stagedAddress := GuestGate.stagedAddress
  peerSlot := PeerSlot.ofOperands
  slice := Memory.slice
  check := Memory.check

variable {M : Type → Type} [Monad M] (c : Checks M)

def execve (filename argv envp : Int32) : M Request := do
  let (_, memory) ← c.guestMemory .reading
  let args ← c.decode memory filename.toUInt32 argv.toUInt32 envp.toUInt32
  return { call := .execve args }

/-- A call with an address that is copied out beforehand. -/
def staged (call : SocketAddress → HostCall) (pointer length : Int32) : M Request := do
  let (_, memory) ← c.guestMemory .reading
  let address ← c.stagedAddress memory pointer length
  return { call := call address }

def connect (fd pointer length : Int32) : M Request := c.staged (.connect fd) pointer length

def bind (fd pointer length : Int32) : M Request := c.staged (.bind fd) pointer length

def accept (fd pointer lengthAt : Int32) : M Request := do
  let (a, memory) ← c.guestMemory .writing
  let peer ← c.peerSlot memory pointer lengthAt
  return { call := .accept fd (peer.map PeerSlot.buffer), landing := some ⟨a, memory, none, peer⟩ }

/-- An address length of zero sends without a destination, whatever its offset. -/
def sendto (fd pointer length flags destination addressLength : Int32) : M Request := do
  let length ← c.guestLength length
  let (_, memory) ← c.guestMemory .reading
  let data ← c.slice memory pointer.toUInt32 length
  if addressLength = 0 then return { call := .sendto fd data flags none }
  let address ← c.stagedAddress memory destination addressLength
  return { call := .sendto fd data flags (some address) }

def recvfrom (fd pointer length flags source lengthAt : Int32) : M Request := do
  let length ← c.guestLength length
  let (a, memory) ← c.guestMemory .writing
  c.check memory pointer.toUInt32 length
  let peer ← c.peerSlot memory source lengthAt
  return {
    call := .recvfrom fd length flags (peer.map PeerSlot.buffer)
    landing := some ⟨a, memory, some ⟨pointer.toUInt32, length⟩, peer⟩ }

/-- The request of a syscall, which looks its operands up by their places. A duplicate of the
process that shares no memory with it serves for `vfork`, and a sleep is a receive. -/
def request (operand : Nat → M Int32) : Syscall → M Request
  | .exit => do return { call := .exit (← operand 0) }
  | .kill => do return { call := .kill (← operand 0) (← operand 1) }
  | .pause => return { call := .pause }
  | .getpid => return { call := .getpid }
  | .execve => do c.execve (← operand 0) (← operand 1) (← operand 2)
  | .fork => return { call := .fork }
  | .vfork => return { call := .fork }
  | .socket => do return { call := .socket (← operand 0) (← operand 1) (← operand 2) }
  | .shutdown => do return { call := .shutdown (← operand 0) (← operand 1) }
  | .connect => do c.connect (← operand 0) (← operand 1) (← operand 2)
  | .bind => do c.bind (← operand 0) (← operand 1) (← operand 2)
  | .listen => do return { call := .listen (← operand 0) (← operand 1) }
  | .accept => do c.accept (← operand 0) (← operand 1) (← operand 2)
  | .sendto => do
    c.sendto (← operand 0) (← operand 1) (← operand 2) (← operand 3) (← operand 4) (← operand 5)
  | .recvfrom => do
    c.recvfrom (← operand 0) (← operand 1) (← operand 2) (← operand 3) (← operand 4) (← operand 5)
  | .dup2 => do return { call := .dup2 (← operand 0) (← operand 1) }
  | .nanosleep => do
    c.recvfrom (← operand 0) (← operand 1) (← operand 2) (← operand 3) (← operand 4) (← operand 5)

end Checks

namespace Request

def execve (m : Machine) (filename argv envp : Int32) : Except Fault Request :=
  (Checks.plain m).execve filename argv envp

def staged (m : Machine) (call : SocketAddress → HostCall) (pointer length : Int32) :
    Except Fault Request :=
  (Checks.plain m).staged call pointer length

def accept (m : Machine) (fd pointer lengthAt : Int32) : Except Fault Request :=
  (Checks.plain m).accept fd pointer lengthAt

def sendto (m : Machine) (fd pointer length flags destination addressLength : Int32) :
    Except Fault Request :=
  (Checks.plain m).sendto fd pointer length flags destination addressLength

def recvfrom (m : Machine) (fd pointer length flags source lengthAt : Int32) :
    Except Fault Request :=
  (Checks.plain m).recvfrom fd pointer length flags source lengthAt

/-- The request of a syscall with its operands. No place past the last of them is looked at. -/
def ofSyscall (m : Machine) (s : Syscall) (v : Vector Int32 s.arity) : Except Fault Request :=
  (Checks.plain m).request (fun i => .ok (v[i]?.getD 0)) s

end Request

end GuestGate
