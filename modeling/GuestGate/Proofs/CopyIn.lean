import GuestGate.Proofs.MemoryView
import GuestGate.Proofs.Resolution

/-!
# Copying data and addresses in

What the host gets to see of the guest's memory when the guest connects, binds or sends: exactly
the ranges that the operands name, or nothing, for the first reason in a fixed order. The order is
data before address, and for each its sign, then its place, and last, for an address, whether it is
too long for any buffer.
-/

namespace GuestGate

section

variable {ε α β : Type} {P : α → Prop} {Q : β → Prop}

/-- A chain of checks whose first fault is known, and what holds of its result if it has none. -/
inductive Decides (P : α → Prop) : Except ε α → Option ε → Prop where
  | error (f : ε) : Decides P (.error f) (some f)
  | ok {a : α} : P a → Decides P (.ok a) none

namespace Decides

variable {e : Except ε α} {k : α → Except ε β} {f g : Option ε}

/-- What comes first in a chain also comes first among the faults. -/
theorem bind (he : Decides P e f) (hk : ∀ a, P a → Decides Q (k a) g) :
    Decides Q (e >>= k) (f.or g) := by
  cases he with
  | error f => exact .error f
  | ok ha => exact hk _ ha

theorem bind_pure {F : α → β} (he : Decides P e f) (hF : ∀ a, P a → Q (F a)) :
    Decides Q (e >>= fun a => pure (F a)) f := by
  cases he with
  | error f => exact .error f
  | ok ha => exact .ok (hF _ ha)

theorem eq_error {fault : ε} (h : Decides P e (some fault)) : e = .error fault := by
  cases h
  rfl

theorem exists_ok (h : Decides P e none) : ∃ a, e = .ok a ∧ P a := by
  cases h with
  | ok ha => exact ⟨_, rfl, ha⟩

end Decides

end

/-- A length that counts downwards. -/
def lengthFault? (length : Int32) : Option Fault :=
  if length.toInt < 0 then some (.invalidLength length.toInt) else none

/-- A range that does not lie in a memory of some size. -/
def boundsFault? (size : Nat) (offset length : Int32) : Option Fault :=
  if size < offset.toUInt32.toNat + length.toInt then
    some (.outOfBounds offset.toUInt32 length.toInt.toNat size)
  else none

/-- An address that no buffer is long enough for. -/
def bufferFault? (length : Int32) : Option Fault :=
  if 128 < length.toInt then some (.invalidLength length.toInt) else none

def dataFault? (size : Nat) (offset length : Int32) : Option Fault :=
  (lengthFault? length).or (boundsFault? size offset length)

def addressFault? (size : Nat) (offset length : Int32) : Option Fault :=
  (lengthFault? length).or ((boundsFault? size offset length).or (bufferFault? length))

/-- The operands by which a syscall sends: the offset and the length of data, if it takes any, and
those of an address, if one goes with it. -/
structure Sending where
  data : Option (Int32 × Int32)
  address : Option (Int32 × Int32)
deriving DecidableEq, Repr

/-- Sending to an address of length zero is sending without an address, whatever its offset. -/
def Syscall.sending? (s : Syscall) (v : Vector Int32 s.arity) : Option Sending :=
  match s, v.toList with
  | .connect, [_, offset, length] | .bind, [_, offset, length] =>
    some ⟨none, some (offset, length)⟩
  | .sendto, [_, offset, length, _, destination, addressLength] =>
    some ⟨some (offset, length),
      if addressLength = 0 then none else some (destination, addressLength)⟩
  | _, _ => none

theorem Syscall.exists_sending {s : Syscall} (h : s ∈ [.connect, .bind, .sendto])
    (v : Vector Int32 s.arity) : ∃ w, s.sending? v = some w := by
  cases s
  case connect | bind =>
    obtain ⟨fd, offset, length, rfl⟩ := Vector.exists_three v
    exact ⟨_, rfl⟩
  case sendto =>
    obtain ⟨fd, offset, length, flags, destination, addressLength, rfl⟩ := Vector.exists_six v
    exact ⟨_, rfl⟩
  all_goals simp at h

/-- The first thing wrong with what a syscall sends out of a memory of some size. -/
def Sending.fault? (w : Sending) (size : Nat) : Option Fault :=
  (w.data.bind fun (offset, length) => dataFault? size offset length).or
    (w.address.bind fun (offset, length) => addressFault? size offset length)

/-- With data, its length comes first, then its place, and then the address. -/
theorem Sending.fault?_with_data (size : Nat) (offset length : Int32)
    (address : Option (Int32 × Int32)) :
    fault? ⟨some (offset, length), address⟩ size =
      (lengthFault? length).or ((boundsFault? size offset length).or
        (address.bind fun (offset, length) => addressFault? size offset length)) :=
  Option.or_assoc

/-- Bytes that are exactly those of a range of a memory. -/
structure Memory.Reads (m : Memory) (offset length : Int32) (bytes : List UInt8) : Prop where
  length : (bytes.length : Int) = length.toInt
  bytes : ∀ i < bytes.length, bytes[i]? = m.view (offset.toUInt32.toNat + i)

/-- An address that is exactly a range of a memory, in a buffer with nothing else. -/
structure SocketAddress.CopyOf (a : SocketAddress) (m : Memory) (offset length : Int32) :
    Prop where
  bytes : m.Reads offset length a.bytes
  length : (a.length.toNat : Int) = length.toInt
  rest : a.storage.toList.drop a.length.toNat = List.replicate (128 - a.length.toNat) 0

namespace HostCall

/-- The data that a call sends. -/
def data? : HostCall → Option (List UInt8)
  | .sendto _ data _ _ => some data
  | _ => none

/-- The address that a call goes to. -/
def target? : HostCall → Option SocketAddress
  | .connect _ address | .bind _ address => some address
  | .sendto _ _ _ destination => destination
  | _ => none

end HostCall

/-- A call with the data and the address that the operands name, each if they name one. -/
structure Sending.CopiedIn (w : Sending) (m : Memory) (call : HostCall) : Prop where
  data : Option.Rel (fun range bytes => m.Reads range.1 range.2 bytes) w.data call.data?
  address : Option.Rel (fun range a => a.CopyOf m range.1 range.2) w.address call.target?

theorem guestLength_decides (length : Int32) :
    Decides (fun n : Nat => length.toInt = n) (guestLength length) (lengthFault? length) := by
  have hz : length < 0 ↔ length.toInt < 0 := Int32.lt_iff_toInt_lt
  unfold guestLength lengthFault?
  by_cases h : length < 0
  · rw [if_pos h, if_pos (hz.mp h)]
    exact .error _
  · have hn := mt hz.mpr h
    rw [if_neg h, if_neg hn]
    exact .ok (Int.toNat_of_nonneg (Int.not_lt.mp hn)).symm

namespace Memory

variable {m : Memory} {offset length : Int32} {n : Nat}

theorem reads_of_slice {bytes : List UInt8} (hn : length.toInt = n)
    (h : m.slice offset.toUInt32 n = .ok bytes) : m.Reads offset length bytes := by
  have hl := length_slice h
  exact ⟨by rw [hl, hn], fun i hi => getElem?_slice h (hl ▸ hi)⟩

theorem slice_decides (m : Memory) (hn : length.toInt = n) :
    Decides (m.Reads offset length) (m.slice offset.toUInt32 n)
      (boundsFault? m.size offset length) := by
  have hc : m.Contains offset.toUInt32 n ↔
      ¬(m.size : Int) < offset.toUInt32.toNat + length.toInt := by
    rw [Contains, hn]
    omega
  unfold boundsFault?
  by_cases h : m.Contains offset.toUInt32 n
  · have hs := slice_eq_ok_iff.mpr ⟨h, rfl⟩
    rw [if_neg (hc.mp h), hs]
    exact .ok (reads_of_slice hn hs)
  · rw [if_pos (Decidable.not_not.mp (mt hc.mpr h)), slice, if_neg h, outOfBounds, hn,
      Int.toNat_natCast]
    exact .error _

end Memory

namespace SocketAddress

variable {m : Memory} {offset length : Int32} {bytes : List UInt8}

theorem copyOf_filled (h : m.Reads offset length bytes) (hl : bytes.length ≤ capacity) :
    ((zeros (UInt32.ofNat bytes.length)).fill bytes).CopyOf m offset length := by
  have hlength : ((zeros (UInt32.ofNat bytes.length)).fill bytes).length.toNat = bytes.length := by
    rw [capacity] at hl
    change (UInt32.ofNat bytes.length).toNat = bytes.length
    rw [UInt32.toNat_ofNat']
    omega
  have hstorage := toList_fill_zeros (UInt32.ofNat bytes.length) bytes
  rw [List.take_append, List.take_of_length_le hl, List.take_replicate,
    Nat.min_eq_left (Nat.sub_le ..)] at hstorage
  refine ⟨?_, ?_, ?_⟩
  · rw [SocketAddress.bytes, hstorage, hlength, List.take_left]
    exact h
  · rw [hlength]
    exact h.length
  · rw [hstorage, hlength, List.drop_left]
    rfl

theorem ofGuest_decides (h : m.Reads offset length bytes) :
    Decides (CopyOf · m offset length) (ofGuest bytes) (bufferFault? length) := by
  have hc : (128 < length.toInt) ↔ capacity < bytes.length := by
    rw [← h.length, capacity]
    omega
  unfold ofGuest bufferFault?
  by_cases hl : capacity < bytes.length
  · rw [if_pos hl, if_pos (hc.mpr hl), h.length]
    exact .error _
  · rw [if_neg hl, if_neg (mt hc.mp hl)]
    exact .ok (copyOf_filled h (Nat.not_lt.mp hl))

end SocketAddress

theorem stagedAddress_decides (m : Memory) (offset length : Int32) :
    Decides (·.CopyOf m offset length) (stagedAddress m offset length)
      (addressFault? m.size offset length) :=
  (guestLength_decides length).bind fun _ hn =>
    (m.slice_decides hn).bind fun _ hb => SocketAddress.ofGuest_decides hb

section

variable {m : Machine} {a : MemoryAddress} {memory : Memory}

theorem Machine.guestMemory_decides (resolved : m.guestMemory .reading = .ok (a, memory)) :
    Decides (· = (a, memory)) (m.guestMemory .reading) none := by
  rw [resolved]
  exact .ok rfl

namespace Request

/-- A call with an address and nothing else, by whichever primitive it goes there. -/
theorem staged_decides (resolved : m.guestMemory .reading = .ok (a, memory))
    {call : SocketAddress → HostCall} (hdata : ∀ address, (call address).data? = none)
    (htarget : ∀ address, (call address).target? = some address) (offset length : Int32) :
    Decides (fun r => Sending.CopiedIn ⟨none, some (offset, length)⟩ memory r.call)
      (staged m call offset length) (addressFault? memory.size offset length) := by
  refine (Machine.guestMemory_decides resolved).bind ?_
  rintro _ rfl
  refine (stagedAddress_decides memory offset length).bind_pure fun address h => ?_
  refine ⟨?_, ?_⟩
  · rw [hdata]
    exact .none
  · rw [htarget]
    exact .some h

/-- The data is looked at first, and the address only if there is one. -/
theorem sendto_decides (resolved : m.guestMemory .reading = .ok (a, memory))
    (fd offset length flags destination addressLength : Int32) :
    Decides (fun r => Sending.CopiedIn ⟨some (offset, length),
        if addressLength = 0 then none else some (destination, addressLength)⟩ memory r.call)
      (sendto m fd offset length flags destination addressLength)
      (Sending.fault? ⟨some (offset, length),
        if addressLength = 0 then none else some (destination, addressLength)⟩ memory.size) := by
  rw [Sending.fault?_with_data]
  refine (guestLength_decides length).bind fun n hn => ?_
  refine (Machine.guestMemory_decides resolved).bind ?_
  rintro _ rfl
  refine (memory.slice_decides hn).bind fun data hd => ?_
  by_cases hz : addressLength = 0
  · simp only [if_pos hz]
    exact .ok ⟨.some hd, .none⟩
  · simp only [if_neg hz]
    exact (stagedAddress_decides memory destination addressLength).bind_pure fun _ h =>
      ⟨.some hd, .some h⟩

/-- The request of a syscall that sends is refused for the first thing wrong, and is otherwise a
copy of what the operands name. -/
theorem ofSyscall_decides (resolved : m.guestMemory .reading = .ok (a, memory)) {s : Syscall}
    {v : Vector Int32 s.arity} {w : Sending} (hw : s.sending? v = some w) :
    Decides (fun r => w.CopiedIn memory r.call) (ofSyscall m s v) (w.fault? memory.size) := by
  unfold Syscall.sending? at hw
  rw [Vector.toList_eq_map_finRange] at hw
  cases s
  case connect | bind =>
    cases hw
    exact staged_decides resolved (fun _ => rfl) (fun _ => rfl) ..
  case sendto =>
    cases hw
    exact sendto_decides resolved ..
  all_goals cases hw

/-- Only a syscall that wants the memory for writing has a place there for its answer. -/
theorem landing_eq_none {s : Syscall} {v : Vector Int32 s.arity} {r : Request}
    (h : ofSyscall m s v = .ok r) (reads : s.access? ≠ some .writing) : r.landing = none := by
  cases s
  case accept | recvfrom | nanosleep => exact absurd rfl reads
  case execve =>
    obtain ⟨_, _, _, -, -, rfl⟩ := execve_eq_ok_iff.mp h
    rfl
  case connect | bind =>
    obtain ⟨_, _, _, -, -, rfl⟩ := staged_eq_ok_iff.mp h
    rfl
  case sendto =>
    obtain ⟨_, _, _, _, _, -, -, -, -, rfl⟩ := sendto_eq_ok_iff.mp h
    rfl
  all_goals
    cases h
    rfl

end Request

end

/-- A dispatch that has called the host once, for its own syscall, with what the operands name. -/
structure Outcome.CopiesIn (o : Outcome) (s : Syscall) (v : Vector Int32 s.arity) (w : Sending)
    (memory : Memory) (call : HostCall) : Prop where
  calls : o.calls = [call]
  service : call.service = s
  integers : call.integers = s.integers v
  copied : w.CopiedIn memory call

namespace Machine

variable {m : Machine} {host : Host} {config : Config} {s : Syscall}

theorem perform_store_of_no_landing {r : Request} (h : r.landing = none) (number : UInt32)
    (log : List LogEvent) : (m.perform host number r log).machine.store = m.store := by
  rcases r.call.exits_or_not with ⟨status, he⟩ | hx
  · rw [perform_exit host number log he]
  · have hsound : ∀ l ∈ r.landing, l.Sound m := by
      rw [h]
      nofun
    rw [perform_store hsound hx, Request.storeAfter, h]

/-- A syscall that does not want its memory for writing leaves every memory as it is, whatever
becomes of the dispatch. -/
theorem dispatch_store_of_reads (reads : s.access? ≠ some .writing) :
    (m.dispatch host config s.number).machine.store = m.store := by
  rcases m.refuses_or_passes config s with ⟨f, log, hr⟩ | ⟨v, r, hp⟩
  · rw [hr.dispatch_eq]
    rfl
  · rw [hp.dispatch_eq, perform_store_of_no_landing (Request.landing_eq_none hp.granted reads)]
    rfl

variable {v : Vector Int32 s.arity} {w : Sending} {a : MemoryAddress} {memory : Memory}

theorem refusedFor_of_fault (permitted : config.permits s = true)
    (operands : m.stack.peekI32 s.arity = .ok v)
    (resolved : m.guestMemory .reading = .ok (a, memory)) (hw : s.sending? v = some w) {f : Fault}
    (hf : w.fault? memory.size = some f) :
    (m.dispatch host config s.number).RefusedFor m s.number f := by
  have hdecides := Request.ofSyscall_decides resolved hw
  rw [hf] at hdecides
  have hrefused : m.Refuses config s f (.operands s v.toList :: s.warnings) :=
    .request permitted operands hdecides.eq_error
  rw [hrefused.dispatch_eq]
  exact ⟨rfl, rfl, rfl⟩

theorem copiesIn_of_no_fault (permitted : config.permits s = true)
    (operands : m.stack.peekI32 s.arity = .ok v)
    (resolved : m.guestMemory .reading = .ok (a, memory)) (hw : s.sending? v = some w)
    (hf : w.fault? memory.size = none) :
    ∃ call, (m.dispatch host config s.number).CopiesIn s v w memory call := by
  have hdecides := Request.ofSyscall_decides resolved hw
  rw [hf] at hdecides
  obtain ⟨r, hr, hcopied⟩ := hdecides.exists_ok
  have hp : m.Passes config s v r := ⟨permitted, operands, hr⟩
  have hserved : s.servedBy = s := by
    cases s <;> first | rfl | cases hw
  refine ⟨r.call, ?_, hp.faithful.service.trans hserved, hp.faithful.integers, hcopied⟩
  rw [hp.dispatch_eq, perform_calls]

/-- What connecting, binding and sending copy out of the guest's memory, and what they are refused
for. None of them changes a memory. -/
theorem dispatch_copies_in (sends : s ∈ [.connect, .bind, .sendto]) :
    (m.dispatch host config s.number).machine.store = m.store ∧
    ∀ v a memory, config.permits s = true → m.stack.peekI32 s.arity = .ok v →
      m.guestMemory .reading = .ok (a, memory) → ∃ w, s.sending? v = some w ∧
        (∀ f, w.fault? memory.size = some f →
          (m.dispatch host config s.number).RefusedFor m s.number f) ∧
        (w.fault? memory.size = none → ∃ call,
          (m.dispatch host config s.number).CopiesIn s v w memory call) := by
  have reads : s.access? ≠ some .writing := by
    cases s <;> first | decide | simp at sends
  refine ⟨dispatch_store_of_reads reads, fun v a memory permitted operands resolved => ?_⟩
  · obtain ⟨w, hw⟩ := Syscall.exists_sending sends v
    exact ⟨w, hw, fun f hf => refusedFor_of_fault permitted operands resolved hw hf,
      copiesIn_of_no_fault permitted operands resolved hw⟩

/-- A page of zeros, and a trap that sends its first four bytes to an address of some length whose
place is sixteen bytes before the end. -/
def mailing (addressLength : Int32) : Machine where
  store := ⟨#[{ memory := .blank 1 Memory.one_le_maxPages }]⟩
  stack :=
    (({} : Stack).pushFrame ⟨⟨"guest", [⟨0⟩]⟩, 0, [], 0⟩).pushAll
      [.i32 3, .i32 0, .i32 4, .i32 0, .i32 65520, .i32 addressLength]

theorem peekI32_mailing (addressLength : Int32) :
    (mailing addressLength).stack.peekI32 Syscall.sendto.arity =
      .ok #v[3, 0, 4, 0, 65520, addressLength] := rfl

theorem guestMemory_mailing (addressLength : Int32) :
    (mailing addressLength).guestMemory .reading =
      .ok (⟨0⟩, .blank 1 Memory.one_le_maxPages) := rfl

theorem mailing_copied_in :
    Syscall.sendto ∈ [Syscall.connect, .bind, .sendto] ∧
    Config.permissive.permits .sendto = true ∧
    (mailing 16).stack.peekI32 Syscall.sendto.arity = .ok #v[3, 0, 4, 0, 65520, 16] ∧
    (mailing 16).guestMemory .reading = .ok (⟨0⟩, .blank 1 Memory.one_le_maxPages) ∧
    (∃ call, ((mailing 16).dispatch (.replying ⟨4, 0, [], [], 0⟩) .permissive
      Syscall.sendto.number).CopiesIn .sendto #v[3, 0, 4, 0, 65520, 16]
        ⟨some (0, 4), some (65520, 16)⟩ (.blank 1 Memory.one_le_maxPages) call) ∧
    ((mailing 17).dispatch (.replying ⟨4, 0, [], [], 0⟩) .permissive
      Syscall.sendto.number).RefusedFor (mailing 17) Syscall.sendto.number
        (.outOfBounds 65520 17 65536) := by
  have permitted : Config.permissive.permits .sendto = true := by decide
  have hsends : Syscall.sendto ∈ [Syscall.connect, .bind, .sendto] := by decide
  have hfits := @dispatch_copies_in (mailing 16) (.replying ⟨4, 0, [], [], 0⟩) .permissive _ hsends
  have hlong := @dispatch_copies_in (mailing 17) (.replying ⟨4, 0, [], [], 0⟩) .permissive _ hsends
  obtain ⟨w, hw, -, hcopies⟩ :=
    hfits.2 _ _ _ permitted (peekI32_mailing 16) (guestMemory_mailing 16)
  obtain ⟨w', hw', hrefused, -⟩ :=
    hlong.2 _ _ _ permitted (peekI32_mailing 17) (guestMemory_mailing 17)
  cases hw
  cases hw'
  refine ⟨hsends, permitted, peekI32_mailing 16, guestMemory_mailing 16, hcopies ?_, hrefused _ ?_⟩
  · rw [Memory.size_blank]
    rfl
  · rw [Memory.size_blank]
    rfl

end Machine

end GuestGate
