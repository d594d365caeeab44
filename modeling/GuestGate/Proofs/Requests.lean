import GuestGate.Proofs.Faults

/-!
# Requests that pass their checks

When each request is granted and what it is then: the call it makes, whose integers are the guest's
operands in the order they were pushed, and where in the guest's memory its answer may land.
-/

namespace GuestGate

/-- A vector's elements in order, each by its index. -/
theorem Vector.toList_eq_map_finRange {α : Type} {n : Nat} (v : Vector α n) :
    v.toList = (List.finRange n).map fun i => v[i] := by
  apply List.ext_getElem
  · simp
  · intro i hi _
    simp

theorem Vector.exists_three {α : Type} (v : Vector α 3) : ∃ a b c, v = #v[a, b, c] :=
  ⟨v[0], v[1], v[2], Vector.toList_inj.mp (Vector.toList_eq_map_finRange v)⟩

theorem Vector.exists_six {α : Type} (v : Vector α 6) :
    ∃ a b c d e f, v = #v[a, b, c, d, e, f] :=
  ⟨v[0], v[1], v[2], v[3], v[4], v[5], Vector.toList_inj.mp (Vector.toList_eq_map_finRange v)⟩

theorem Stack.currentFrame_eq_ok_iff {s : Stack} {f : Frame} :
    s.currentFrame = .ok f ↔ s.frames.head? = some f := by
  unfold currentFrame
  split <;> simp_all

theorem GuestModule.memoryAt_eq_ok_iff {g : GuestModule} {index : Nat} {a : MemoryAddress} :
    g.memoryAt index = .ok a ↔ g.memories[index]? = some a := by
  unfold memoryAt
  split <;> simp_all

namespace Store

theorem memory_eq_ok_iff {s : Store} {a : MemoryAddress} {access : Access} {m : Memory} :
    s.memory a access = .ok m ↔
      ∃ c, s.cells[a.index]? = some c ∧ c.hold.admits access = true ∧ c.memory = m := by
  unfold memory cell
  cases s.cells[a.index]? with
  | none => simp
  | some c =>
    dsimp only
    split <;> simp_all

end Store

namespace Machine

/-- Where the first memory of the current module is, whether or not the store has it. -/
def ownAddress? (m : Machine) : Option MemoryAddress :=
  m.stack.frames.head?.bind fun f => f.guestModule.memories[0]?

variable {m : Machine} {access : Access} {a : MemoryAddress} {memory : Memory}

theorem ownAddress?_eq_some_iff :
    m.ownAddress? = some a ↔
      ∃ f, m.stack.currentFrame = .ok f ∧ f.guestModule.memoryAt 0 = .ok a := by
  simp only [ownAddress?, Option.bind_eq_some_iff, Stack.currentFrame_eq_ok_iff,
    GuestModule.memoryAt_eq_ok_iff]

theorem guestMemory_of_own (h : m.ownAddress? = some a) (access : Access) :
    m.guestMemory access = (m.store.memory a access).map fun memory => (a, memory) := by
  obtain ⟨f, hf, ha⟩ := ownAddress?_eq_some_iff.mp h
  rw [guestMemory, hf]
  change (f.guestModule.memoryAt 0 >>= _) = _
  rw [ha]
  change (m.store.memory a access >>= fun n => pure (a, n)) = _
  cases m.store.memory a access <;> rfl

theorem guestMemory_eq_ok_iff :
    m.guestMemory access = .ok (a, memory) ↔
      m.ownAddress? = some a ∧ m.store.memory a access = .ok memory := by
  simp only [guestMemory, bind_eq_ok_iff, pure_eq_ok_iff, Prod.mk.injEq, ownAddress?_eq_some_iff]
  constructor
  · rintro ⟨f, hf, b, hb, n, hn, rfl, rfl⟩
    exact ⟨⟨f, hf, hb⟩, hn⟩
  · rintro ⟨⟨f, hf, ha⟩, hm⟩
    exact ⟨f, hf, a, ha, memory, hm, rfl, rfl⟩

end Machine

theorem guestLength_eq_ok_iff {n : Int32} {length : Nat} :
    guestLength n = .ok length ↔ n.toInt = length := by
  have hz : n < 0 ↔ n.toInt < 0 := Int32.lt_iff_toInt_lt
  unfold guestLength
  split
  next h =>
    have := hz.mp h
    simp only [reduceCtorEq, false_iff]
    omega
  next h =>
    have := mt hz.mpr h
    rw [Except.ok.injEq]
    omega

theorem SocketAddress.length_of_ofGuest {bytes : List UInt8} {a : SocketAddress}
    (h : ofGuest bytes = .ok a) : a.length.toNat = bytes.length := by
  unfold ofGuest at h
  split at h
  · cases h
  next hc =>
    cases h
    simp only [fill, zeros, UInt32.toNat_ofNat']
    simp only [capacity] at hc
    omega

theorem length_of_stagedAddress {m : Memory} {pointer length : Int32} {a : SocketAddress}
    (h : stagedAddress m pointer length = .ok a) : (a.length.toNat : Int) = length.toInt := by
  obtain ⟨n, hn, h⟩ := bind_eq_ok_iff.mp h
  obtain ⟨bytes, hb, ha⟩ := bind_eq_ok_iff.mp h
  rw [SocketAddress.length_of_ofGuest ha, Memory.length_slice hb, guestLength_eq_ok_iff.mp hn]

namespace PeerSlot

/-- The word at the slot says how much room there is, and there is as much. -/
def FitsIn (slot : PeerSlot) (m : Memory) : Prop :=
  m.readWord slot.lengthAt = .ok slot.capacity ∧ m.Contains slot.offset slot.capacity.toNat

theorem FitsIn.contains_length {slot : PeerSlot} {m : Memory} (h : slot.FitsIn m) :
    m.Contains slot.lengthAt 4 := Memory.contains_of_readWord h.1

theorem ofOperands_eq_some_iff {m : Memory} {offset lengthAt : Int32} {slot : PeerSlot} :
    ofOperands m offset lengthAt = .ok (some slot) ↔
      lengthAt ≠ 0 ∧ slot.offset = offset.toUInt32 ∧ slot.lengthAt = lengthAt.toUInt32 ∧
        slot.FitsIn m := by
  unfold ofOperands
  split
  next h => simp [h]
  next h =>
    simp only [bind_eq_ok_iff, pure_eq_ok_iff, Memory.check_eq_ok_iff_contains, exists_const,
      Option.some.injEq]
    constructor
    · rintro ⟨capacity, hr, hc, rfl⟩
      exact ⟨h, rfl, rfl, hr, hc⟩
    · rintro ⟨-, ho, hl, hr, hc⟩
      rw [hl] at hr
      rw [ho] at hc
      exact ⟨slot.capacity, hr, hc, by rw [← ho, ← hl]⟩

theorem ofOperands_eq_none_iff {m : Memory} {offset lengthAt : Int32} :
    ofOperands m offset lengthAt = .ok none ↔ lengthAt = 0 := by
  unfold ofOperands
  split
  next h => simp [h]
  next h =>
    simp only [bind_eq_ok_iff, pure_eq_ok_iff, reduceCtorEq, and_false, exists_false, h]

end PeerSlot

namespace Request

variable {m : Machine} {r : Request}

theorem ofSyscall_execve (m : Machine) (filename argv envp : Int32) :
    ofSyscall m .execve #v[filename, argv, envp] = execve m filename argv envp := rfl

theorem execve_of_guestMemory {a : MemoryAddress} {memory : Memory}
    (h : m.guestMemory .reading = .ok (a, memory)) (filename argv envp : Int32) :
    execve m filename argv envp =
      (ExecArgs.decode memory filename.toUInt32 argv.toUInt32 envp.toUInt32).map fun args =>
        { call := .execve args } := by
  change (m.guestMemory .reading >>= _) = _
  rw [h]
  change (ExecArgs.decode memory filename.toUInt32 argv.toUInt32 envp.toUInt32 >>= _) = _
  cases ExecArgs.decode memory filename.toUInt32 argv.toUInt32 envp.toUInt32 <;> rfl

theorem execve_eq_ok_iff {filename argv envp : Int32} :
    execve m filename argv envp = .ok r ↔
      ∃ a memory args, m.guestMemory .reading = .ok (a, memory) ∧
        ExecArgs.decode memory filename.toUInt32 argv.toUInt32 envp.toUInt32 = .ok args ∧
        r = { call := .execve args } := by
  simp only [execve, Checks.execve, Checks.plain, bind_eq_ok_iff, pure_eq_ok_iff, Prod.exists,
    eq_comm (a := r), exists_and_left]

theorem staged_eq_ok_iff {call : SocketAddress → HostCall} {pointer length : Int32} :
    staged m call pointer length = .ok r ↔
      ∃ a memory address, m.guestMemory .reading = .ok (a, memory) ∧
        GuestGate.stagedAddress memory pointer length = .ok address ∧
        r = { call := call address } := by
  simp only [staged, Checks.staged, Checks.plain, bind_eq_ok_iff, pure_eq_ok_iff, Prod.exists,
    eq_comm (a := r), exists_and_left]

theorem accept_eq_ok_iff {fd pointer lengthAt : Int32} :
    accept m fd pointer lengthAt = .ok r ↔
      ∃ a memory peer, m.guestMemory .writing = .ok (a, memory) ∧
        PeerSlot.ofOperands memory pointer lengthAt = .ok peer ∧
        r = { call := .accept fd (peer.map PeerSlot.buffer),
              landing := some ⟨a, memory, none, peer⟩ } := by
  simp only [accept, Checks.accept, Checks.plain, bind_eq_ok_iff, pure_eq_ok_iff, Prod.exists,
    eq_comm (a := r), exists_and_left]

theorem sendto_eq_ok_iff {fd pointer length flags destination addressLength : Int32} :
    sendto m fd pointer length flags destination addressLength = .ok r ↔
      ∃ n a memory data address, guestLength length = .ok n ∧
        m.guestMemory .reading = .ok (a, memory) ∧
        memory.slice pointer.toUInt32 n = .ok data ∧
        (if addressLength = 0 then address = none
          else ∃ staged, stagedAddress memory destination addressLength = .ok staged ∧
            address = some staged) ∧
        r = { call := .sendto fd data flags address } := by
  simp only [sendto, Checks.sendto, Checks.plain, bind_eq_ok_iff, Prod.exists]
  split
  · simp [pure_eq_ok_iff, eq_comm (a := r)]
  · simp only [bind_eq_ok_iff, pure_eq_ok_iff, eq_comm (a := r)]
    constructor
    · rintro ⟨n, hn, a, memory, hm, data, hd, staged, hs, hr⟩
      exact ⟨n, a, memory, data, some staged, hn, hm, hd, ⟨staged, hs, rfl⟩, hr⟩
    · rintro ⟨n, a, memory, data, -, hn, hm, hd, ⟨staged, hs, rfl⟩, hr⟩
      exact ⟨n, hn, a, memory, hm, data, hd, staged, hs, hr⟩

theorem recvfrom_eq_ok_iff {fd pointer length flags source lengthAt : Int32} :
    recvfrom m fd pointer length flags source lengthAt = .ok r ↔
      ∃ n a memory peer, guestLength length = .ok n ∧
        m.guestMemory .writing = .ok (a, memory) ∧ memory.Contains pointer.toUInt32 n ∧
        PeerSlot.ofOperands memory source lengthAt = .ok peer ∧
        r = { call := .recvfrom fd n flags (peer.map PeerSlot.buffer),
              landing := some ⟨a, memory, some ⟨pointer.toUInt32, n⟩, peer⟩ } := by
  simp only [recvfrom, Checks.recvfrom, Checks.plain, bind_eq_ok_iff, pure_eq_ok_iff,
    Memory.check_eq_ok_iff_contains, Prod.exists, eq_comm (a := r), exists_and_left, exists_const]

end Request

/-- What a syscall takes an operand for. -/
inductive Role where
  | integer
  | pointer
deriving DecidableEq, Repr

namespace Syscall

/-- The roles of the operands in the order they are pushed. -/
def roles : Syscall → List Role
  | .pause | .getpid | .fork | .vfork => []
  | .exit => [.integer]
  | .kill | .shutdown | .listen | .dup2 => [.integer, .integer]
  | .socket => [.integer, .integer, .integer]
  | .execve => [.pointer, .pointer, .pointer]
  | .connect | .bind => [.integer, .pointer, .integer]
  | .accept => [.integer, .pointer, .pointer]
  | .sendto => [.integer, .pointer, .integer, .integer, .pointer, .integer]
  | .recvfrom | .nanosleep => [.integer, .pointer, .integer, .integer, .pointer, .pointer]

theorem length_roles (s : Syscall) : s.roles.length = s.arity := by cases s <;> rfl

/-- The operands that are no pointers, in the order they were pushed. -/
def integers (s : Syscall) (v : Vector Int32 s.arity) : List Int :=
  ((v.toList.zip s.roles).filter fun (_, role) => role = .integer).map fun (n, _) => n.toInt

theorem integers_eq (s : Syscall) (v : Vector Int32 s.arity) :
    s.integers v = ((((List.finRange s.arity).map fun i => v[i]).zip s.roles).filter
      fun (_, role) => role = .integer).map fun (n, _) => n.toInt := by
  rw [integers, Vector.toList_eq_map_finRange]

/-- The syscall whose host primitive serves this one. -/
def servedBy : Syscall → Syscall
  | .vfork => .fork
  | .nanosleep => .recvfrom
  | s => s

end Syscall

/-- The integers among the arguments of a host primitive, from the first to the last. -/
def HostCall.integers : HostCall → List Int
  | .exit status => [status.toInt]
  | .kill process signal => [process.toInt, signal.toInt]
  | .pause | .getpid | .fork | .execve _ => []
  | .dup2 source target => [source.toInt, target.toInt]
  | .socket domain kind protocol => [domain.toInt, kind.toInt, protocol.toInt]
  | .shutdown fd how => [fd.toInt, how.toInt]
  | .listen fd backlog => [fd.toInt, backlog.toInt]
  | .connect fd address | .bind fd address => [fd.toInt, address.length.toNat]
  | .accept fd _ => [fd.toInt]
  | .sendto fd data flags destination =>
    [fd.toInt, data.length, flags.toInt, destination.elim 0 fun a => a.length.toNat]
  | .recvfrom fd length flags _ => [fd.toInt, length, flags.toInt]

/-- A landing that the machine's own memory, held by nobody, has room for. -/
structure Landing.Sound (l : Landing) (m : Machine) : Prop where
  resolved : m.guestMemory .writing = .ok (l.address, l.memory)
  data : ∀ range ∈ l.data, l.memory.Contains range.offset range.length
  peer : ∀ slot ∈ l.peer, slot.FitsIn l.memory

namespace Request

/-- A request that says what the guest said: the primitive of the syscall with the integers the
guest pushed, and an answer that lands, if at all, where there is room for it. -/
structure Faithful (r : Request) (m : Machine) (s : Syscall) (v : Vector Int32 s.arity) :
    Prop where
  service : r.call.service = s.servedBy
  integers : r.call.integers = s.integers v
  landing : ∀ l ∈ r.landing, l.Sound m

variable {m : Machine} {r : Request}

theorem accept_faithful {v : Vector Int32 3} (h : accept m v[0] v[1] v[2] = .ok r) :
    r.Faithful m .accept v := by
  obtain ⟨a, memory, peer, hm, hp, rfl⟩ := accept_eq_ok_iff.mp h
  refine ⟨rfl, (Syscall.integers_eq .accept v).symm, ?_⟩
  rintro l ⟨⟩
  refine ⟨hm, by simp, ?_⟩
  rintro slot ⟨⟩
  exact (PeerSlot.ofOperands_eq_some_iff.mp hp).2.2.2

theorem recvfrom_faithful {v : Vector Int32 6}
    (h : recvfrom m v[0] v[1] v[2] v[3] v[4] v[5] = .ok r) : r.Faithful m .recvfrom v := by
  obtain ⟨n, a, memory, peer, hn, hm, hc, hp, rfl⟩ := recvfrom_eq_ok_iff.mp h
  refine ⟨rfl, .trans ?_ (Syscall.integers_eq .recvfrom v).symm, ?_⟩
  · rw [HostCall.integers, ← guestLength_eq_ok_iff.mp hn]
    rfl
  · rintro l ⟨⟩
    refine ⟨hm, ?_, ?_⟩
    · rintro range ⟨⟩
      exact hc
    · rintro slot ⟨⟩
      exact (PeerSlot.ofOperands_eq_some_iff.mp hp).2.2.2

theorem sendto_faithful {v : Vector Int32 6}
    (h : sendto m v[0] v[1] v[2] v[3] v[4] v[5] = .ok r) : r.Faithful m .sendto v := by
  obtain ⟨n, a, memory, data, address, hn, -, hd, ha, rfl⟩ := sendto_eq_ok_iff.mp h
  have hl : (data.length : Int) = v[2].toInt := by
    rw [Memory.length_slice hd, guestLength_eq_ok_iff.mp hn]
  have hal : (address.elim 0 fun a => (a.length.toNat : Int)) = v[5].toInt := by
    split at ha
    next hz => simp [ha, hz]
    next =>
      obtain ⟨staged, hs, rfl⟩ := ha
      exact length_of_stagedAddress hs
  refine ⟨rfl, .trans ?_ (Syscall.integers_eq .sendto v).symm, by simp⟩
  rw [HostCall.integers, hl, hal]
  rfl

/-- Every request that is granted is faithful. -/
theorem faithful_of_ofSyscall {s : Syscall} {v : Vector Int32 s.arity}
    (h : ofSyscall m s v = .ok r) : r.Faithful m s v := by
  cases s
  case accept => exact accept_faithful h
  case sendto => exact sendto_faithful h
  case recvfrom => exact recvfrom_faithful h
  case nanosleep =>
    have hf := recvfrom_faithful h
    exact ⟨hf.service, hf.integers, hf.landing⟩
  case execve =>
    obtain ⟨a, memory, args, -, -, rfl⟩ := execve_eq_ok_iff.mp h
    exact ⟨rfl, (Syscall.integers_eq .execve v).symm, by simp⟩
  case connect | bind =>
    obtain ⟨a, memory, address, -, hs, rfl⟩ := staged_eq_ok_iff.mp h
    refine ⟨rfl, ?_, by simp⟩
    rw [Syscall.integers_eq, HostCall.integers, length_of_stagedAddress hs]
    rfl
  all_goals
    cases h
    exact ⟨rfl, (Syscall.integers_eq _ v).symm, by simp⟩

end Request

end GuestGate
