import GuestGate.Dispatch
import GuestGate.Proofs.Operands
import GuestGate.Proofs.Requests

/-!
# What a dispatch can do

A dispatch is refused before anything happens, or the request passes every check and is performed.
Once a request has passed, only the host's own answer can turn it into a trap: there is room for
whatever the host stores and for whatever address it reports.
-/

namespace GuestGate

namespace Memory

variable {m : Memory} {offset : UInt32} {length : Nat}

theorem Contains.mono {n : Nat} (h : m.Contains offset length) (hn : n ≤ length) :
    m.Contains offset n := Nat.le_trans (Nat.add_le_add_left hn _) h

theorem contains_put {start : Nat} {data : List UInt8} :
    (m.put start data).Contains offset length ↔ m.Contains offset length := by
  rw [Contains, size_put, Contains]

theorem write_of_contains {data : List UInt8} (h : m.Contains offset data.length) :
    m.write offset data = .ok (m.put offset.toNat data) := write_eq_ok_iff.mpr ⟨h, rfl⟩

end Memory

/-- The memory with as much of an address as the guest has room for, and then its full length. -/
def PeerSlot.written (slot : PeerSlot) (m : Memory) (a : SocketAddress) : Memory :=
  (m.put slot.offset.toNat (a.bytes.take slot.capacity.toNat)).put slot.lengthAt.toNat
    (Bytes.ofWord a.length)

namespace PeerSlot

theorem bytes_written (slot : PeerSlot) (m : Memory) (a : SocketAddress) :
    (slot.written m a).bytes =
      Bytes.overwrite (Bytes.overwrite m.bytes slot.offset.toNat (a.bytes.take slot.capacity.toNat))
        slot.lengthAt.toNat (Bytes.ofWord a.length) := by
  rw [written, Memory.bytes_put, Memory.bytes_put]

theorem size_written (slot : PeerSlot) (m : Memory) (a : SocketAddress) :
    (slot.written m a).size = m.size := by
  rw [written, Memory.size_put, Memory.size_put]

theorem pages_written (slot : PeerSlot) (m : Memory) (a : SocketAddress) :
    (slot.written m a).pages = m.pages := by
  rw [written, Memory.pages_put, Memory.pages_put]

theorem maximum_written (slot : PeerSlot) (m : Memory) (a : SocketAddress) :
    (slot.written m a).maximum = m.maximum := by
  rw [written, Memory.maximum_put, Memory.maximum_put]

theorem writeBack_eq {slot : PeerSlot} {m : Memory} (a : SocketAddress)
    (hb : m.Contains slot.offset slot.capacity.toNat) (hl : m.Contains slot.lengthAt 4) :
    slot.writeBack m a = .ok (slot.written m a) := by
  have ht : (a.bytes.take slot.capacity.toNat).length ≤ slot.capacity.toNat :=
    List.length_take_le _ _
  have hw : (m.put slot.offset.toNat (a.bytes.take slot.capacity.toNat)).Contains slot.lengthAt
      (Bytes.ofWord a.length).length := Memory.contains_put.mpr hl
  refine bind_eq_ok_iff.mpr ⟨_, Memory.write_of_contains (hb.mono ht), ?_⟩
  exact Memory.write_of_contains hw

end PeerSlot

namespace Landing

/-- The memory after the host has stored its data. -/
def stored (l : Landing) (reply : HostReply) : Memory :=
  match l.data with
  | none => l.memory
  | some range => l.memory.put range.offset.toNat (reply.data.take range.length)

theorem contains_stored {l : Landing} {reply : HostReply} {offset : UInt32} {length : Nat} :
    (l.stored reply).Contains offset length ↔ l.memory.Contains offset length := by
  unfold stored
  split
  · rfl
  · exact Memory.contains_put

theorem size_stored (l : Landing) (reply : HostReply) : (l.stored reply).size = l.memory.size := by
  unfold stored
  split
  · rfl
  · exact Memory.size_put ..

theorem pages_stored (l : Landing) (reply : HostReply) :
    (l.stored reply).pages = l.memory.pages := by
  unfold stored
  split
  · rfl
  · exact Memory.pages_put ..

theorem maximum_stored (l : Landing) (reply : HostReply) :
    (l.stored reply).maximum = l.memory.maximum := by
  unfold stored
  split
  · rfl
  · exact Memory.maximum_put ..

variable {l : Landing} {m : Machine}

theorem Sound.received_eq (h : l.Sound m) (reply : HostReply) :
    l.received reply = .ok (l.stored reply) := by
  unfold received stored
  cases hd : l.data with
  | none => rfl
  | some range =>
    have ht : (reply.data.take range.length).length ≤ range.length := List.length_take_le _ _
    exact Memory.write_of_contains ((h.data range hd).mono ht)

theorem Sound.writeBack_eq {slot : PeerSlot} (h : l.Sound m) (hp : slot ∈ l.peer)
    (reply : HostReply) (a : SocketAddress) :
    slot.writeBack (l.stored reply) a = .ok (slot.written (l.stored reply) a) := by
  have hf := h.peer slot hp
  exact PeerSlot.writeBack_eq a (contains_stored.mpr hf.2) (contains_stored.mpr hf.contains_length)

end Landing

namespace Memory

theorem getD_none_le : (none : Option Nat).getD maxPages ≤ maxPages := Nat.le_refl maxPages

/-- Pages of zeros that can grow to the limit. -/
def blank (pages : Nat) (h : pages ≤ maxPages) : Memory :=
  .zeros pages none h getD_none_le

theorem one_le_maxPages : 1 ≤ maxPages := by decide

theorem size_blank {pages : Nat} (h : pages ≤ maxPages) :
    (blank pages h).size = pages * pageSize := size_eq_mul _

end Memory

/-- A host that gives every call the same reply, its value cut to the width of the call. -/
def Host.replying (r : HostReply) : Host where
  answer call := { r with value := call.width.wrap r.value }
  value_lt call := call.width.wrap_lt r.value
  le_value call := call.width.le_wrap r.value

theorem narrow_eq_ok_iff {value : Int} {n : Int32} : narrow value = .ok n ↔ n.toInt = value := by
  have hl := n.le_toInt
  have hu := n.toInt_lt
  unfold narrow
  split
  next h =>
    have hv : (Int32.ofInt value).toInt = value := Int32.toInt_ofInt_of_le h.1 h.2
    rw [Except.ok.injEq, ← Int32.toInt_inj, hv, eq_comm]
  next h =>
    simp only [reduceCtorEq, false_iff]
    omega

/-- Whether a value fits an operand. -/
def Narrow (value : Int) : Prop := -2147483648 ≤ value ∧ value < 2147483648

theorem narrow_eq_error_iff {value : Int} {f : Fault} :
    narrow value = .error f ↔ ¬Narrow value ∧ f = .syscallFailed (.tooWide value) := by
  unfold narrow
  split
  next h => simp [Narrow, h]
  next h => simp [Narrow, h, eq_comm]

namespace HostCall

/-- What the guest gets out of a call. -/
def result (call : HostCall) (reply : HostReply) : Except Fault Int32 :=
  match call.outcome reply with
  | .error failure => .error (.syscallFailed failure)
  | .ok value => narrow value

theorem exits_or_not (call : HostCall) :
    (∃ status, call = .exit status) ∨ ∀ status, call ≠ .exit status := by
  by_cases h : ∃ status, call = .exit status
  · exact .inl h
  · exact .inr fun status he => h ⟨status, he⟩

theorem outcome_ok {call : HostCall} {reply : HostReply} {value : Int}
    (h : call.outcome reply = .ok value) : value = reply.value := by
  unfold outcome at h
  split at h
  · cases h; rfl
  · unfold HostReply.outcome at h
    split at h
    · cases h
    · cases h; rfl

/-- A result is the host's value as a number. -/
theorem toInt_of_result {call : HostCall} {reply : HostReply} {n : Int32}
    (h : call.result reply = .ok n) : n.toInt = reply.value := by
  unfold result at h
  split at h
  · cases h
  next ho => rw [narrow_eq_ok_iff.mp h, outcome_ok ho]

theorem blamesHost_of_result {call : HostCall} {reply : HostReply} {f : Fault}
    (h : call.result reply = .error f) : f.blamesHost = true := by
  unfold result at h
  split at h
  · cases h; rfl
  · rw [(narrow_eq_error_iff.mp h).2]
    rfl

end HostCall

namespace Request

/-- The memory of a landing after the answer. -/
def settled (r : Request) (l : Landing) (reply : HostReply) : Memory :=
  match r.call.outcome reply, l.peer with
  | .ok _, some slot => slot.written (l.stored reply) (slot.filled reply)
  | _, _ => l.stored reply

theorem pages_settled (r : Request) (l : Landing) (reply : HostReply) :
    (r.settled l reply).pages = l.memory.pages := by
  unfold settled
  split
  · rw [PeerSlot.pages_written, Landing.pages_stored]
  · exact Landing.pages_stored ..

theorem maximum_settled (r : Request) (l : Landing) (reply : HostReply) :
    (r.settled l reply).maximum = l.memory.maximum := by
  unfold settled
  split
  · rw [PeerSlot.maximum_written, Landing.maximum_stored]
  · exact Landing.maximum_stored ..

/-- The memories after the answer. -/
def storeAfter (r : Request) (store : Store) (reply : HostReply) : Store :=
  match r.landing with
  | none => store
  | some l => store.replace l.address (r.settled l reply)

/-- The records that the answer leaves. -/
def records (r : Request) (reply : HostReply) : List LogEvent :=
  match r.call.outcome reply with
  | .error _ => [.hostFailed reply.errno]
  | .ok value =>
    match r.landing.bind Landing.peer with
    | none => []
    | some slot => r.call.peerRecord value (slot.filled reply)

/-- After the call nothing can fail any more but the call itself. -/
theorem answered_eq {r : Request} {m : Machine} (h : ∀ l ∈ r.landing, l.Sound m) (store : Store)
    (reply : HostReply) :
    r.answered store reply =
      ⟨r.storeAfter store reply, r.call.result reply, r.records reply⟩ := by
  unfold answered storeAfter records settled HostCall.result
  cases hl : r.landing with
  | none => cases ho : r.call.outcome reply <;> simp
  | some l =>
    have hs := h l hl
    cases ho : r.call.outcome reply with
    | error failure => simp [hs.received_eq]
    | ok value =>
      cases hp : l.peer with
      | none => simp [hs.received_eq, hp]
      | some slot => simp [hs.received_eq, hp, hs.writeBack_eq hp]

end Request

theorem Config.check_eq_ok_iff {config : Config} {s : Syscall} :
    config.check s = .ok () ↔ config.permits s = true := by
  unfold Config.check
  split <;> simp_all

/-- A trap that passes every check and becomes a request. -/
structure Machine.Passes (m : Machine) (config : Config) (s : Syscall) (v : Vector Int32 s.arity)
    (r : Request) : Prop where
  permitted : config.permits s = true
  operands : m.stack.peekI32 s.arity = .ok v
  granted : Request.ofSyscall m s v = .ok r

/-- A trap that fails a check, with the fault and the records after the first. -/
inductive Machine.Refuses (m : Machine) (config : Config) (s : Syscall) :
    Fault → List LogEvent → Prop where
  | denied : config.permits s = false → m.Refuses config s (.capabilityDenied s) [.refused s]
  | operands {f : Fault} : config.permits s = true → m.stack.peekI32 s.arity = .error f →
    m.Refuses config s f []
  | request {v : Vector Int32 s.arity} {f : Fault} : config.permits s = true →
    m.stack.peekI32 s.arity = .ok v → Request.ofSyscall m s v = .error f →
    m.Refuses config s f (.operands s v.toList :: s.warnings)

/-- The records of a trap up to the host call. -/
def Syscall.preamble (s : Syscall) (available : Nat) (v : Vector Int32 s.arity) (r : Request) :
    List LogEvent :=
  .invoked s available :: .operands s v.toList :: s.warnings ++ r.call.announcement

namespace Machine

variable {m : Machine} {config : Config} {s : Syscall} {v : Vector Int32 s.arity} {r : Request}

/-- The machine with the operands of a syscall taken off. -/
def taken (m : Machine) (s : Syscall) : Machine := { m with stack := m.stack.dropped s.arity }

theorem Passes.arity_le (h : m.Passes config s v r) : s.arity ≤ m.stack.available :=
  (Stack.peekI32_eq_ok_iff.mp h.operands).1

theorem Passes.faithful (h : m.Passes config s v r) : r.Faithful m s v :=
  Request.faithful_of_ofSyscall h.granted

theorem dispatch_number (m : Machine) (host : Host) (config : Config) (s : Syscall) :
    m.dispatch host config s.number = m.invoke host config s := by
  rw [dispatch, Syscall.ofNumber?_number]

theorem Passes.dispatch_eq (h : m.Passes config s v r) (host : Host) :
    m.dispatch host config s.number =
      (m.taken s).perform host s.number r (s.preamble m.stack.available v r) := by
  have hc : config.check s = .ok () := Config.check_eq_ok_iff.mpr h.permitted
  rw [dispatch_number, invoke]
  simp only [hc, h.operands, h.granted, Stack.discard_of_le h.arity_le]
  rfl

theorem Refuses.dispatch_eq {f : Fault} {log : List LogEvent} (h : m.Refuses config s f log)
    (host : Host) :
    m.dispatch host config s.number =
      m.trap s.number f [] (.invoked s m.stack.available :: log) := by
  rw [dispatch_number, invoke]
  cases h with
  | denied hc =>
    have hcheck : config.check s = .error (.capabilityDenied s) := by simp [Config.check, hc]
    simp only [hcheck]
  | operands hc ho =>
    simp only [Config.check_eq_ok_iff.mpr hc, ho]
  | request hc ho hr =>
    simp only [Config.check_eq_ok_iff.mpr hc, ho, hr]

theorem Refuses.hostless {f : Fault} {log : List LogEvent} (h : m.Refuses config s f log) :
    f.blamesHost = false := by
  cases h with
  | denied hc => rfl
  | operands hc ho => rcases Stack.peekI32_error ho with rfl | ⟨actual, rfl⟩ <;> rfl
  | request hc ho hr => exact Request.ofSyscall_hostless f hr

theorem refuses_or_passes (m : Machine) (config : Config) (s : Syscall) :
    (∃ f log, m.Refuses config s f log) ∨ ∃ v r, m.Passes config s v r := by
  by_cases hc : config.permits s = true
  · cases ho : m.stack.peekI32 s.arity with
    | error f => exact .inl ⟨f, _, .operands hc ho⟩
    | ok v =>
      cases hr : Request.ofSyscall m s v with
      | error f => exact .inl ⟨f, _, .request hc ho hr⟩
      | ok r => exact .inr ⟨v, r, hc, ho, hr⟩
  · exact .inl ⟨_, _, .denied (Bool.not_eq_true _ ▸ hc)⟩

/-- A dispatch is refused, with nothing changed and no call made, or it passes every check. -/
theorem dispatch_cases (m : Machine) (config : Config) (number : UInt32) :
    (∃ f log, f.blamesHost = false ∧
      ∀ host, m.dispatch host config number = m.trap number f [] log) ∨
    ∃ s v r, s.number = number ∧ m.Passes config s v r := by
  cases hs : Syscall.ofNumber? number with
  | none =>
    refine .inl ⟨.unknownSyscall number, [.unknownNumber number], rfl, fun host => ?_⟩
    rw [dispatch, hs]
  | some s =>
    obtain rfl := Syscall.ofNumber?_eq_some_iff.mp hs
    rcases m.refuses_or_passes config s with ⟨f, log, hr⟩ | ⟨v, r, hp⟩
    · exact .inl ⟨f, _, hr.hostless, hr.dispatch_eq⟩
    · exact .inr ⟨s, v, r, rfl, hp⟩

theorem perform_exit (host : Host) (number : UInt32) (log : List LogEvent) {status : Int32}
    (h : r.call = .exit status) :
    m.perform host number r log = ⟨m, .exited status, [.exit status], log⟩ := by
  simp only [perform, h]

/-- The machine after the host's answer, before its value is pushed. -/
def settled (m : Machine) (r : Request) (host : Host) : Machine :=
  { m with store := r.storeAfter m.store (host.answer r.call) }

theorem perform_eq {n : Machine} (h : ∀ l ∈ r.landing, l.Sound n)
    (hx : ∀ status, r.call ≠ .exit status) (host : Host) (number : UInt32) (log : List LogEvent) :
    m.perform host number r log =
      match r.call.result (host.answer r.call) with
      | .error f =>
        (m.settled r host).trap number f [r.call] (log ++ r.records (host.answer r.call))
      | .ok k =>
        ⟨{ m.settled r host with stack := m.stack.push (.i32 k) }, .returned, [r.call],
          log ++ r.records (host.answer r.call)⟩ := by
  unfold perform
  split
  next status he => exact absurd he (hx status)
  · rw [Request.answered_eq h]
    rfl

theorem perform_store {n : Machine} (h : ∀ l ∈ r.landing, l.Sound n)
    (hx : ∀ status, r.call ≠ .exit status) (host : Host) (number : UInt32) (log : List LogEvent) :
    (m.perform host number r log).machine.store = r.storeAfter m.store (host.answer r.call) := by
  rw [perform_eq h hx]
  cases r.call.result (host.answer r.call) <;> rfl

theorem perform_frames (m : Machine) (host : Host) (number : UInt32) (r : Request)
    (log : List LogEvent) :
    (m.perform host number r log).machine.stack.frames = m.stack.frames := by
  unfold perform
  split
  · rfl
  · dsimp only
    split <;> rfl

theorem perform_calls (m : Machine) (host : Host) (number : UInt32) (r : Request)
    (log : List LogEvent) : (m.perform host number r log).calls = [r.call] := by
  unfold perform
  split
  · rfl
  · dsimp only
    split <;> rfl

theorem Passes.calls_eq (h : m.Passes config s v r) (host : Host) :
    (m.dispatch host config s.number).calls = [r.call] := by
  rw [h.dispatch_eq, perform_calls]

/-- A host that was called was called by a syscall that passed every check. -/
theorem passes_of_calls {host : Host} (h : (m.dispatch host config s.number).calls ≠ []) :
    ∃ v r, m.Passes config s v r := by
  rcases m.refuses_or_passes config s with ⟨f, log, hr⟩ | hp
  · rw [hr.dispatch_eq] at h
    exact absurd rfl h
  · exact hp

theorem perform_congr_host {host host' : Host} (h : host'.answer r.call = host.answer r.call)
    (m : Machine) (number : UInt32) (log : List LogEvent) :
    m.perform host' number r log = m.perform host number r log := by
  unfold perform
  split
  · rfl
  · rw [h]

/-- The calls on record are all that a dispatch asks of the host. -/
theorem dispatch_congr_host {host host' : Host} {number : UInt32}
    (h : ∀ call ∈ (m.dispatch host config number).calls, host'.answer call = host.answer call) :
    m.dispatch host' config number = m.dispatch host config number := by
  rcases m.dispatch_cases config number with ⟨f, log, -, hd⟩ | ⟨s, v, r, rfl, hp⟩
  · rw [hd, hd]
  · rw [hp.dispatch_eq] at h ⊢
    rw [hp.dispatch_eq]
    apply perform_congr_host
    apply h
    simp [perform_calls]

end Machine

end GuestGate
