import GuestGate.ExecArgs
import GuestGate.SocketAddress

/-!
# The host

What the guest's syscalls ask of the host, as data, and what the host gives back. A host is a
function from calls to replies, so nothing here happens by itself.
-/

namespace GuestGate

inductive HostCall where
  | exit (status : Int32)
  | kill (process signal : Int32)
  | pause
  | getpid
  | fork
  | execve (args : ExecArgs)
  | dup2 (source target : Int32)
  | socket (domain kind protocol : Int32)
  | shutdown (fd how : Int32)
  | listen (fd backlog : Int32)
  | connect (fd : Int32) (address : SocketAddress)
  | bind (fd : Int32) (address : SocketAddress)
  /-- With a buffer for the peer's address, if the guest wants it. -/
  | accept (fd : Int32) (peer : Option SocketAddress)
  | sendto (fd : Int32) (data : List UInt8) (flags : Int32) (destination : Option SocketAddress)
  /-- With room for `length` bytes of data and a buffer for the peer's address, if wanted. -/
  | recvfrom (fd : Int32) (length : Nat) (flags : Int32) (peer : Option SocketAddress)
deriving DecidableEq, Repr

/-- The widths of the signed numbers that host primitives return. -/
inductive ReturnWidth where
  | bits8
  | bits16
  | bits32
  | bits64
deriving DecidableEq, Repr

namespace ReturnWidth

/-- Numbers of a width lie below its limit and not below the limit's negative. -/
def limit : ReturnWidth → Int
  | .bits8 => 128
  | .bits16 => 32768
  | .bits32 => 2147483648
  | .bits64 => 9223372036854775808

/-- The number of a width that agrees with `n` in its lowest bits. -/
def wrap (w : ReturnWidth) (n : Int) : Int := (n + w.limit) % (2 * w.limit) - w.limit

theorem wrap_lt (w : ReturnWidth) (n : Int) : w.wrap n < w.limit := by
  cases w <;> simp only [wrap, limit] <;> omega

theorem le_wrap (w : ReturnWidth) (n : Int) : -w.limit ≤ w.wrap n := by
  cases w <;> simp only [wrap, limit] <;> omega

theorem wrap_eq_self {w : ReturnWidth} {n : Int} (hl : -w.limit ≤ n) (hu : n < w.limit) :
    w.wrap n = n := by
  cases w <;> simp only [wrap, limit] at hl hu ⊢ <;> omega

end ReturnWidth

/-- The return value, the error number, and what the host stores in the buffers of the call. -/
structure HostReply where
  value : Int
  errno : Int32
  data : List UInt8 := []
  address : List UInt8 := []
  addressLength : UInt32 := 0
deriving DecidableEq, Repr

/-- A host primitive reports failure by the value -1 and leaves the reason in the error number. -/
def HostReply.outcome (r : HostReply) : Except HostFailure Int :=
  if r.value = -1 then .error (.os r.errno) else .ok r.value

namespace HostCall

/-- The syscall whose service the call is. -/
def service : HostCall → Syscall
  | .exit .. => .exit
  | .kill .. => .kill
  | .pause => .pause
  | .getpid => .getpid
  | .fork => .fork
  | .execve .. => .execve
  | .dup2 .. => .dup2
  | .socket .. => .socket
  | .shutdown .. => .shutdown
  | .listen .. => .listen
  | .connect .. => .connect
  | .bind .. => .bind
  | .accept .. => .accept
  | .sendto .. => .sendto
  | .recvfrom .. => .recvfrom

/-- The arrays of pointers that a call hands over: those to a program's arguments and to its
environment. -/
def arrays : HostCall → List (List (Option (List UInt8)))
  | .execve args => [ExecArgs.pointers args.argv, ExecArgs.pointers args.envp]
  | _ => []

/-- Byte counts have 64 bits, all else has 32. -/
def width : HostCall → ReturnWidth
  | .sendto .. | .recvfrom .. => .bits64
  | _ => .bits32

/-- What the guest is told: asking for the process id cannot fail. -/
def outcome (call : HostCall) (r : HostReply) : Except HostFailure Int :=
  match call with
  | .getpid => .ok r.value
  | _ => r.outcome

end HostCall

structure Host where
  answer : HostCall → HostReply
  value_lt : ∀ call, (answer call).value < call.width.limit
  le_value : ∀ call, -call.width.limit ≤ (answer call).value

end GuestGate
