import GuestGate.Fault
import GuestGate.SocketAddress

/-!
# Log events

What a dispatch puts on record. An event holds no more than its message shows.
-/

namespace GuestGate

inductive LogLevel where
  | error
  | warn
  | info
  | debug
  | trace
deriving DecidableEq, Repr

namespace LogLevel

def rank : LogLevel → Nat
  | .error => 1
  | .warn => 2
  | .info => 3
  | .debug => 4
  | .trace => 5

/-- Whether a log kept at a level has the records of another. -/
def shows (kept level : LogLevel) : Bool := level.rank ≤ kept.rank

end LogLevel

inductive LogEvent where
  | invoked (s : Syscall) (available : Nat)
  | unknownNumber (number : UInt32)
  | refused (s : Syscall)
  | operands (s : Syscall) (values : List Int32)
  | receivesInsteadOfSleeping
  | exiting (status : Int32)
  | executing (filename : List UInt8) (argv : List (List UInt8)) (environment : Nat)
  | connecting (fd : Int32) (address : ShownAddress)
  | binding (fd : Int32) (address : ShownAddress)
  | sending (fd : Int32) (length : Nat) (flags : Int32) (destination : Option ShownAddress)
  | accepted (fd : Int32) (value : Int) (peer : ShownAddress)
  | received (fd : Int32) (value : Int) (peer : ShownAddress)
  | hostFailed (errno : Int32)
deriving DecidableEq, Repr

namespace LogEvent

def level : LogEvent → LogLevel
  | .refused _ | .receivesInsteadOfSleeping => .warn
  | .invoked .. | .unknownNumber _ | .exiting _ | .executing .. | .hostFailed _ => .debug
  | .operands .. | .connecting .. | .binding .. | .sending .. | .accepted .. | .received .. =>
    .trace

def bracketed (items : List String) : String := "[" ++ ", ".intercalate items ++ "]"

def message : LogEvent → String
  | .invoked s available => s!"{s.label} (arity {s.arity}, {available} operands available)"
  | .unknownNumber number => s!"unknown syscall {number.toNat}"
  | .refused s => s!"{s.label} refused by syscall configuration"
  | .operands s values => s!"{s.label} args " ++ bracketed (values.map fun n => toString n.toInt)
  | .receivesInsteadOfSleeping => "sys_nanosleep is routed to recvfrom, not a sleep primitive"
  | .exiting status => s!"sys_exit({status.toInt}) terminating process"
  | .executing filename argv environment =>
    s!"sys_execve({Quoted.bytes filename}, argv=" ++ bracketed (argv.map Quoted.bytes) ++
      s!", envc={environment})"
  | .connecting fd address => s!"sys_connect({fd.toInt}, {address.text})"
  | .binding fd address => s!"sys_bind({fd.toInt}, {address.text})"
  | .sending fd length flags destination =>
    s!"sys_sendto({fd.toInt}, {length} bytes, flags 0x" ++
      String.ofList (Hex.natural flags.toUInt32.toNat) ++ ", " ++
      (match destination with
        | none => "None"
        | some address => s!"Some({address.text})") ++ ")"
  | .accepted fd value peer => s!"sys_accept({fd.toInt}) -> {value} from {peer.text}"
  | .received fd value peer => s!"sys_recvfrom({fd.toInt}) {value} bytes from {peer.text}"
  | .hostFailed errno => s!"host call failed: {(HostFailure.os errno).message}"

end LogEvent

end GuestGate
