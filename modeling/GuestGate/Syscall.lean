/-!
# The syscall table

The host services a guest can ask for, with the number it asks by, the operands each takes and
what each touches.
-/

namespace GuestGate

inductive Syscall where
  | exit
  | kill
  | pause
  | getpid
  | execve
  | fork
  | vfork
  | socket
  | shutdown
  | connect
  | bind
  | listen
  | accept
  | sendto
  | recvfrom
  | dup2
  | nanosleep
deriving DecidableEq, Repr

namespace Syscall

def all : List Syscall :=
  [.exit, .kill, .pause, .getpid, .execve, .fork, .vfork, .socket, .shutdown, .connect, .bind,
    .listen, .accept, .sendto, .recvfrom, .dup2, .nanosleep]

def number : Syscall → UInt32
  | .dup2 => 33
  | .pause => 34
  | .nanosleep => 35
  | .getpid => 39
  | .socket => 41
  | .connect => 42
  | .accept => 43
  | .sendto => 44
  | .recvfrom => 45
  | .shutdown => 48
  | .bind => 49
  | .listen => 50
  | .fork => 57
  | .vfork => 58
  | .execve => 59
  | .exit => 60
  | .kill => 62

def name : Syscall → String
  | .exit => "exit"
  | .kill => "kill"
  | .pause => "pause"
  | .getpid => "getpid"
  | .execve => "execve"
  | .fork => "fork"
  | .vfork => "vfork"
  | .socket => "socket"
  | .shutdown => "shutdown"
  | .connect => "connect"
  | .bind => "bind"
  | .listen => "listen"
  | .accept => "accept"
  | .sendto => "sendto"
  | .recvfrom => "recvfrom"
  | .dup2 => "dup2"
  | .nanosleep => "nanosleep"

def ofNumber? (n : UInt32) : Option Syscall := all.find? (·.number == n)

def ofName? (s : String) : Option Syscall := all.find? (·.name == s)

/-- The number of operands taken from the stack. -/
def arity : Syscall → Nat
  | .pause | .getpid | .fork | .vfork => 0
  | .exit => 1
  | .kill | .shutdown | .listen | .dup2 => 2
  | .execve | .socket | .connect | .bind | .accept => 3
  | .sendto | .recvfrom | .nanosleep => 6

/-- Whether an operand points into guest memory. -/
def usesMemory : Syscall → Bool
  | .execve | .connect | .bind | .accept | .sendto | .recvfrom | .nanosleep => true
  | _ => false

/-- Whether the host process is ended, replaced or duplicated. -/
def controlsProcess : Syscall → Bool
  | .exit | .execve | .fork | .vfork => true
  | _ => false

/-- The name in messages. -/
def label (s : Syscall) : String := "sys_" ++ s.name

theorem mem_all (s : Syscall) : s ∈ all := by cases s <;> decide

theorem ofNumber?_number (s : Syscall) : ofNumber? s.number = some s := by cases s <;> decide

theorem ofName?_name (s : Syscall) : ofName? s.name = some s := by cases s <;> decide

theorem ofNumber?_eq_some_iff {n : UInt32} {s : Syscall} : ofNumber? n = some s ↔ s.number = n := by
  constructor
  · intro h; simpa using List.find?_some h
  · rintro rfl; exact ofNumber?_number s

theorem ofName?_eq_some_iff {name : String} {s : Syscall} :
    ofName? name = some s ↔ s.name = name := by
  constructor
  · intro h; simpa using List.find?_some h
  · rintro rfl; exact ofName?_name s

theorem name_injective {s t : Syscall} (h : s.name = t.name) : s = t := by
  have := ofName?_name s
  rw [h, ofName?_name] at this
  exact (Option.some.inj this).symm

end Syscall

end GuestGate
