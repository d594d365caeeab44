import GuestGate.Config
import GuestGate.Dispatch.Request

/-!
# Dispatch

A guest's trap into the host. The configuration is asked first, then the operands are looked at
and turned into a request; up to here a refusal leaves the machine as it was. Then the operands are
taken off, the host is called once, and its answer becomes one operand or a trap.
-/

namespace GuestGate

structure Trap where
  number : UInt32
  fault : Fault
  /-- The stack when the fault was raised. -/
  snapshot : Snapshot
deriving DecidableEq, Repr

namespace Trap

def syscall? (t : Trap) : Option Syscall := Syscall.ofNumber? t.number

def label (t : Trap) : String :=
  match t.syscall? with
  | some s => s.label
  | none => "unknown"

def message (t : Trap) : String := s!"[syscall][{t.label}] {t.fault.message}"

end Trap

inductive Ending where
  | returned
  | trapped (t : Trap)
  /-- The host process ended; nothing comes after. -/
  | exited (status : Int32)
deriving DecidableEq, Repr

structure Outcome where
  machine : Machine
  ending : Ending
  calls : List HostCall
  log : List LogEvent
deriving DecidableEq, Repr

/-- The records of a call that is about to be made. -/
def HostCall.announcement : HostCall → List LogEvent
  | .exit status => [.exiting status]
  | .execve args => [.executing args.filename args.argv args.envp.length]
  | .connect fd address => [.connecting fd address.shown]
  | .bind fd address => [.binding fd address.shown]
  | .sendto fd data flags destination =>
    [.sending fd data.length flags (destination.map SocketAddress.shown)]
  | _ => []

/-- The record of a peer's address that came with an answer. -/
def HostCall.peerRecord (value : Int) (peer : SocketAddress) : HostCall → List LogEvent
  | .accept fd _ => [.accepted fd value peer.shown]
  | .recvfrom fd _ _ _ => [.received fd value peer.shown]
  | _ => []

def Syscall.warnings : Syscall → List LogEvent
  | .nanosleep => [.receivesInsteadOfSleeping]
  | _ => []

def Config.check (c : Config) (s : Syscall) : Except Fault Unit :=
  if c.permits s then .ok () else .error (.capabilityDenied s)

/-- A host's value as an operand. -/
def narrow (value : Int) : Except Fault Int32 :=
  if -2147483648 ≤ value ∧ value < 2147483648 then .ok (Int32.ofInt value)
  else .error (.syscallFailed (.tooWide value))

/-- What is left of a request after the answer: the memories, the operand to push, the records. -/
structure Answered where
  store : Store
  result : Except Fault Int32
  log : List LogEvent

namespace Request

/-- Data that the host stored stays in memory even if the call failed, and an address is written
back even if the value turns out too wide; the address is recorded before it is written. -/
def answered (r : Request) (store : Store) (reply : HostReply) : Answered :=
  match r.landing with
  | none =>
    match r.call.outcome reply with
    | .error failure => ⟨store, .error (.syscallFailed failure), [.hostFailed reply.errno]⟩
    | .ok value => ⟨store, narrow value, []⟩
  | some l =>
    match l.received reply with
    | .error f => ⟨store, .error f, []⟩
    | .ok memory =>
      match r.call.outcome reply with
      | .error failure =>
        ⟨store.replace l.address memory, .error (.syscallFailed failure),
          [.hostFailed reply.errno]⟩
      | .ok value =>
        match l.peer with
        | none => ⟨store.replace l.address memory, narrow value, []⟩
        | some slot =>
          let peer := slot.filled reply
          let log := r.call.peerRecord value peer
          match slot.writeBack memory peer with
          | .error f => ⟨store.replace l.address memory, .error f, log⟩
          | .ok memory => ⟨store.replace l.address memory, narrow value, log⟩

end Request

namespace Machine

def trap (m : Machine) (number : UInt32) (fault : Fault) (calls : List HostCall)
    (log : List LogEvent) : Outcome :=
  ⟨m, .trapped ⟨number, fault, m.stack.snapshot⟩, calls, log⟩

/-- Makes the call of a request whose operands are taken off. -/
def perform (m : Machine) (host : Host) (number : UInt32) (r : Request) (log : List LogEvent) :
    Outcome :=
  match r.call with
  | .exit status => ⟨m, .exited status, [r.call], log⟩
  | call =>
    let done := r.answered m.store (host.answer call)
    let m := { m with store := done.store }
    match done.result with
    | .error f => m.trap number f [call] (log ++ done.log)
    | .ok n => ⟨{ m with stack := m.stack.push (.i32 n) }, .returned, [call], log ++ done.log⟩

def invoke (m : Machine) (host : Host) (config : Config) (s : Syscall) : Outcome :=
  let entry := LogEvent.invoked s m.stack.available
  match config.check s with
  | .error f => m.trap s.number f [] [entry, .refused s]
  | .ok () =>
    match m.stack.peekI32 s.arity with
    | .error f => m.trap s.number f [] [entry]
    | .ok operands =>
      let log := entry :: .operands s operands.toList :: s.warnings
      match Request.ofSyscall m s operands with
      | .error f => m.trap s.number f [] log
      | .ok r =>
        let log := log ++ r.call.announcement
        match m.stack.discard s.arity with
        | .error f => m.trap s.number f [] log
        | .ok stack => { m with stack }.perform host s.number r log

def dispatch (m : Machine) (host : Host) (config : Config) (number : UInt32) : Outcome :=
  match Syscall.ofNumber? number with
  | some s => m.invoke host config s
  | none => m.trap number (.unknownSyscall number) [] [.unknownNumber number]

end Machine

end GuestGate
