import GuestGate.Proofs.Decoding
import GuestGate.Proofs.History
import GuestGate.Proofs.VectorReading

/-!
# Reports of accesses out of bounds

A report names an offset, a length and the size of a memory and says that the first two together
exceed the third. The size is that of the memory in question, and the sum exceeds it, with one
exception: a vector with an entry that ends with the last byte of a full address space is reported
with the range of that entry, which is all inside.
-/

namespace GuestGate

namespace Memory

/-- A vector read from a place has an entry that ends with the last byte of the address space. -/
def MeetsLastEntry (m : Memory) (start offset : UInt32) (length : Nat) : Prop :=
  ∃ entries s, m.Reaches start entries offset ∧ m.LastEntry offset s ∧ length = s.length + 1

/-- What a report says is so of a memory with vectors read from some places, or it is about the
range of a last entry. -/
structure Reported (m : Memory) (starts : List UInt32) (offset : UInt32) (length size : Nat) :
    Prop where
  size_eq : size = m.size
  exceeds : size < offset.toNat + length ∨
    offset.toNat + length = size ∧ ∃ start ∈ starts, m.MeetsLastEntry start offset length

/-- A memory bears a fault out unless it is a report that is not so. -/
def BearsOut (m : Memory) (starts : List UInt32) (f : Fault) : Prop :=
  ∀ offset length size, f = .outOfBounds offset length size →
    m.Reported starts offset length size

variable {m : Memory} {starts : List UInt32} {offset start : UInt32} {length : Nat}

theorem coversAccesses_bearsOut (m : Memory) (starts : List UInt32) :
    m.CoversAccesses (m.BearsOut starts) := by
  rintro offset length hc _ _ _ ⟨⟩
  exact ⟨rfl, .inl (Nat.lt_of_not_le hc)⟩

theorem strings_of_meetsLastEntry (h : m.MeetsLastEntry start offset length) :
    m.strings start = .error (.outOfBounds offset length m.size) := by
  obtain ⟨entries, s, hreach, hlast, rfl⟩ := h
  exact hreach.result_eq (.noCursor (noCursorAfter_iff_lastEntry.mpr hlast))

/-- A vector is reported for a string that cannot be read, or for its last entry. -/
theorem strings_bearsOut (h : start ∈ starts) :
    FaultsSatisfy (m.BearsOut starts) (m.strings start) := by
  intro f hf
  obtain ⟨entries, cursor, result, hreach, hstops⟩ := m.exists_stops [] start
  rw [List.nil_append] at hstops
  rw [hreach.result_eq hstops] at hf
  cases hstops with
  | terminator => cases hf
  | unreadable hs =>
    cases hf
    exact string_faults (m.coversAccesses_bearsOut starts) _ hs
  | noCursor hs =>
    cases hf
    have hlast := noCursorAfter_iff_lastEntry.mp hs
    rintro _ _ _ ⟨⟩
    exact ⟨rfl, .inr ⟨hlast.end_eq, start, h, entries, _, hreach, hlast, rfl⟩⟩

end Memory

namespace MemoryStep

/-- The places that a step reads vectors from. -/
def vectors : MemoryStep → List UInt32
  | .strings offset => [offset]
  | _ => []

variable {step : MemoryStep} {offset : UInt32} {length : Nat}

/-- An access is reported only if its range is not inside the memory. -/
theorem range_faults {P : Fault → Prop} {m : Memory} (hm : m.CoversAccesses P)
    (h : step.range? = some (offset, length)) : FaultsSatisfy P (step.run m) := by
  intro f hf
  rw [range?] at h
  cases hd : step.demand with
  | query => rw [hd] at h; cases h
  | growth delta => rw [hd] at h; cases h
  | read offset length =>
    have hr := run_read hd m
    split at hr
    next =>
      obtain ⟨a, ha⟩ := hr
      cases ha.symm.trans hf
    next hc =>
      cases hr.symm.trans hf
      exact hm _ _ hc
  | write offset length start data =>
    rw [run_write hd] at hf
    split at hf
    · cases hf
    next hc =>
      cases hf
      exact hm _ _ hc

theorem run_bearsOut (m : Memory) (step : MemoryStep) :
    FaultsSatisfy (m.BearsOut step.vectors) (step.run m) := by
  cases step
  case info => exact .ok _
  case grow delta =>
    rw [run]
    cases m.grow? delta with
    | none => exact .ok _
    | some grown => exact .ok _
  case string offset => exact (Memory.string_faults (m.coversAccesses_bearsOut _)).map
  case strings offset => exact (Memory.strings_bearsOut (List.mem_singleton.mpr rfl)).map
  all_goals exact range_faults (m.coversAccesses_bearsOut _) rfl

end MemoryStep

theorem ExecArgs.decode_bearsOut {m : Memory} {filename argv envp : UInt32} :
    FaultsSatisfy (m.BearsOut [argv, envp]) (ExecArgs.decode m filename argv envp) := by
  intro f h
  cases decode_eq_error_iff.mp h with
  | filename _ hs => exact Memory.string_faults (m.coversAccesses_bearsOut _) f hs
  | argv _ _ _ hs => exact Memory.strings_bearsOut (by simp) f hs
  | envp _ _ _ _ _ hs => exact Memory.strings_bearsOut (by simp) f hs

/-- The places that a syscall reads vectors from. -/
def Syscall.vectors : (s : Syscall) → Vector Int32 s.arity → List UInt32
  | .execve, v => v.toList.tail.map Int32.toUInt32
  | _, _ => []

/-- A fault of a request that its own memory bears out, if it is a report of an access. -/
def Machine.BearsOut (m : Machine) (s : Syscall) (v : Vector Int32 s.arity) (f : Fault) : Prop :=
  ∀ offset length size, f = .outOfBounds offset length size →
    ∃ access a memory, m.guestMemory access = .ok (a, memory) ∧
      memory.Reported (s.vectors v) offset length size

namespace Request

variable (m : Machine) (s : Syscall) (v : Vector Int32 s.arity)

theorem coversRequests_bearsOut : CoversRequests (m.BearsOut s v) := by
  constructor
  case noFrame | noMemory =>
    intro offset length size h
    cases h
  case memoryNotFound | memory | invalidLength =>
    intro _ offset length size h
    cases h

theorem coversAccesses_bearsOut : m.CoversAccesses (m.BearsOut s v) :=
  fun access a memory hr offset length hc _ _ _ he =>
    ⟨access, a, memory, hr, memory.coversAccesses_bearsOut _ offset length hc _ _ _ he⟩

theorem ofSyscall_bearsOut : FaultsSatisfy (m.BearsOut s v) (ofSyscall m s v) := by
  refine ofSyscall_faults (coversRequests_bearsOut m s v) (coversAccesses_bearsOut m s v) ?_
  rintro rfl
  obtain ⟨filename, argv, envp, rfl⟩ := Vector.exists_three v
  rw [ofSyscall_execve]
  refine .bind (Machine.guestMemory_faults (coversRequests_bearsOut m _ _)) fun ⟨a, memory⟩ hr => ?_
  refine .bind (ExecArgs.decode_bearsOut.mono fun f hf => ?_) fun _ _ => .ok _
  exact fun offset length size he => ⟨.reading, a, memory, hr, hf offset length size he⟩

end Request

namespace Machine

variable {m : Machine} {host : Host} {config : Config} {number : UInt32} {t : Trap}

/-- A trap that reports an access is a refusal of the request. -/
theorem trapped_bearsOut (trapped : (m.dispatch host config number).ending = .trapped t)
    {offset : UInt32} {length size : Nat} (h : t.fault = .outOfBounds offset length size) :
    ∃ s v, s.number = number ∧ m.stack.peekI32 s.arity = .ok v ∧ m.BearsOut s v t.fault := by
  cases hs : Syscall.ofNumber? number with
  | none =>
    rw [dispatch, hs] at trapped
    cases trapped
    cases h
  | some s =>
    obtain rfl := Syscall.ofNumber?_eq_some_iff.mp hs
    rcases m.refuses_or_passes config s with ⟨f, log, hr⟩ | ⟨v, r, hp⟩
    · rw [hr.dispatch_eq] at trapped
      cases trapped
      cases hr with
      | denied => cases h
      | operands _ ho => rcases Stack.peekI32_error ho with rfl | ⟨actual, rfl⟩ <;> cases h
      | request _ ho hf => exact ⟨s, _, rfl, ho, Request.ofSyscall_bearsOut m s _ _ hf⟩
    · rw [hp.dispatch_eq] at trapped
      rcases r.call.exits_or_not with ⟨status, he⟩ | hx
      · rw [perform_exit host s.number _ he] at trapped
        cases trapped
      · rw [perform_eq hp.faithful.landing hx] at trapped
        cases hres : r.call.result (host.answer r.call) with
        | ok n =>
          rw [hres] at trapped
          cases trapped
        | error f =>
          rw [hres] at trapped
          cases trapped
          have hblame := HostCall.blamesHost_of_result hres
          subst h
          cases hblame

end Machine

/-- Every report of an access, from a step on a memory or from a dispatch, gives the size of the
memory it is about and says truly that the access exceeds it, but for a vector's last entry that
ends with the last byte of the address space: that range is reported, and it is inside. -/
theorem Fault.outOfBounds_reported (offset : UInt32) (length size : Nat) :
    (∀ (m : Memory) (step : MemoryStep), step.run m = .error (.outOfBounds offset length size) →
      m.Reported step.vectors offset length size) ∧
    (∀ (m : Machine) (host : Host) (config : Config) (number : UInt32) (t : Trap),
      (m.dispatch host config number).ending = .trapped t →
      t.fault = .outOfBounds offset length size →
      ∃ (s : Syscall) (v : Vector Int32 s.arity) (access : Access) (a : MemoryAddress)
        (memory : Memory), s.number = number ∧ m.stack.peekI32 s.arity = .ok v ∧
        m.guestMemory access = .ok (a, memory) ∧
        memory.Reported (s.vectors v) offset length size) ∧
    ∀ (m : Memory) (start : UInt32), m.MeetsLastEntry start offset length →
      m.strings start = .error (.outOfBounds offset length m.size) := by
  refine ⟨fun m step h => step.run_bearsOut m _ h _ _ _ rfl,
    fun m host config number t trapped h => ?_,
    fun m start => Memory.strings_of_meetsLastEntry⟩
  obtain ⟨s, v, hnumber, hv, hbears⟩ := Machine.trapped_bearsOut trapped h
  obtain ⟨access, a, memory, hm, hreported⟩ := hbears _ _ _ h
  exact ⟨s, v, access, a, memory, hnumber, hv, hm, hreported⟩

namespace Memory

theorem brimming_meetsLastEntry : brimming.MeetsLastEntry 4294967292 4294967294 2 :=
  ⟨[[98]], [97], .next .start brimming_entry, brimming_lastEntry, rfl⟩

theorem strings_brimming :
    brimming.strings 4294967292 = .error (.outOfBounds 4294967294 2 4294967296) := by
  rw [strings_of_meetsLastEntry brimming_meetsLastEntry, size_brimming]

theorem brimming_holdsString_nil : brimming.HoldsString 4294967295 [] := by
  have hlast : brimming.Holds 4294967294 ([97] ++ [0]) := brimming_holds.2
  exact ⟨by decide, (holds_append.mp hlast).2⟩

end Memory

namespace Machine

/-- A guest with its memory full to the end, and a trap that runs a program with no name and with
the two strings at the end as its arguments. -/
def cornered : Machine where
  store := ⟨#[{ memory := .brimming }]⟩
  stack :=
    (({} : Stack).pushFrame ⟨⟨"guest", [⟨0⟩]⟩, 0, [], 0⟩).pushAll [.i32 (-1), .i32 (-4), .i32 0]

theorem cornered_guestMemory : cornered.guestMemory .reading = .ok (⟨0⟩, .brimming) := rfl

theorem cornered_refuses :
    cornered.Refuses .permissive .execve (.outOfBounds 4294967294 2 4294967296)
      [.operands .execve [-1, -4, 0]] := by
  have hdecode : ExecArgs.decode .brimming 4294967295 4294967292 0 =
      .error (.outOfBounds 4294967294 2 4294967296) :=
    ExecArgs.decode_eq_error_iff.mpr (.argv [] Memory.brimming_holdsString_nil
      (Memory.missing_of_strings_error Memory.strings_brimming) Memory.strings_brimming)
  have hrequest : Request.ofSyscall cornered .execve #v[-1, -4, 0] =
      .error (.outOfBounds 4294967294 2 4294967296) := by
    rw [Request.ofSyscall_execve, Request.execve_of_guestMemory cornered_guestMemory]
    exact congrArg _ hdecode
  exact .request (by decide) rfl hrequest

theorem cornered_trapped (host : Host) :
    (cornered.dispatch host .permissive Syscall.execve.number).ending =
      .trapped ⟨Syscall.execve.number, .outOfBounds 4294967294 2 4294967296,
        cornered.stack.snapshot⟩ := by
  rw [cornered_refuses.dispatch_eq]
  rfl

/-- A word past the end is reported truly, and the vector at the end with its last entry. -/
theorem cornered_reported :
    (MemoryStep.readWord 4294967293).run .brimming =
      .error (.outOfBounds 4294967293 4 4294967296) ∧
    Memory.brimming.Reported [] 4294967293 4 4294967296 ∧
    Memory.brimming.MeetsLastEntry 4294967292 4294967294 2 ∧
    Memory.brimming.strings 4294967292 =
      .error (.outOfBounds 4294967294 2 Memory.brimming.size) ∧
    ∃ t, (cornered.dispatch (.replying ⟨0, 0, [], [], 0⟩) .permissive
        Syscall.execve.number).ending = .trapped t ∧
      t.fault = .outOfBounds 4294967294 2 4294967296 ∧
      ∃ (s : Syscall) (v : Vector Int32 s.arity) (access : Access) (a : MemoryAddress)
        (memory : Memory), s.number = Syscall.execve.number ∧
        cornered.stack.peekI32 s.arity = .ok v ∧
        cornered.guestMemory access = .ok (a, memory) ∧
        memory.Reported (s.vectors v) 4294967294 2 4294967296 := by
  have hout : ¬Memory.brimming.Contains 4294967293 4 := by
    rw [Memory.Contains, Memory.size_brimming]
    decide
  have hword : (MemoryStep.readWord 4294967293).run .brimming =
      .error (.outOfBounds 4294967293 4 4294967296) := by
    rw [MemoryStep.run, Memory.readWord, dif_neg hout, Memory.outOfBounds, Memory.size_brimming]
    rfl
  obtain ⟨hsteps, -, -⟩ := Fault.outOfBounds_reported 4294967293 4 4294967296
  obtain ⟨-, hdispatch, hlast⟩ := Fault.outOfBounds_reported 4294967294 2 4294967296
  have htrapped := cornered_trapped (.replying ⟨0, 0, [], [], 0⟩)
  exact ⟨hword, hsteps _ _ hword, Memory.brimming_meetsLastEntry,
    hlast _ _ Memory.brimming_meetsLastEntry, _, htrapped, rfl,
    hdispatch cornered _ _ _ _ htrapped rfl⟩

/-- The range that is reported for the vector at the end does not exceed the memory. -/
theorem cornered_misreported :
    (MemoryStep.strings 4294967292).run .brimming =
      .error (.outOfBounds 4294967294 2 4294967296) ∧
    (∀ host, (cornered.dispatch host .permissive Syscall.execve.number).ending =
      .trapped ⟨Syscall.execve.number, .outOfBounds 4294967294 2 4294967296,
        cornered.stack.snapshot⟩) ∧
    Memory.brimming.size = 4294967296 ∧
    ¬4294967296 < (4294967294 : UInt32).toNat + 2 := by
  refine ⟨?_, cornered_trapped, Memory.size_brimming, by decide⟩
  rw [MemoryStep.run, Memory.strings_brimming]
  rfl

end Machine

end GuestGate
