import GuestGate.Proofs.Dispatch

/-!
# Resolving the guest's memory

A syscall with a pointer among its operands needs the first memory of the current module. When the
module has none, or the store does not have it, the dispatch is refused for that reason whatever the
operands are, but for one: a negative length of the data to send or receive is refused before the
memory is looked for.
-/

namespace GuestGate

/-- Why the first memory of the current module is not there. -/
inductive Machine.Unresolved (m : Machine) : Fault → Prop where
  | noMemory {f : Frame} : m.stack.currentFrame = .ok f → f.guestModule.memories = [] →
    m.Unresolved .noMemory
  | notFound {f : Frame} {a : MemoryAddress} : m.stack.currentFrame = .ok f →
    f.guestModule.memories.head? = some a → m.store.size ≤ a.index →
    m.Unresolved (.memoryNotFound a)

/-- The operand that is taken for the length of data before the memory is looked for. -/
def Syscall.dataLength? : (s : Syscall) → Vector Int32 s.arity → Option Int32
  | .sendto, v => v[2]?
  | .recvfrom, v => v[2]?
  | .nanosleep, v => v[2]?
  | _, _ => none

/-- What a syscall is refused for when its memory is not there. -/
def Syscall.unresolvedFault (s : Syscall) (v : Vector Int32 s.arity) (fault : Fault) : Fault :=
  match s.dataLength? v with
  | some n => if n < 0 then .invalidLength n.toInt else fault
  | none => fault

/-- A negative length is what a syscall is refused for, whatever its memory is missing for. -/
theorem Syscall.unresolvedFault_of_negative {s : Syscall} {v : Vector Int32 s.arity} {n : Int32}
    {fault : Fault} (hn : n ∈ s.dataLength? v) (negative : n < 0) :
    s.unresolvedFault v fault = .invalidLength n.toInt := by
  rw [unresolvedFault, Option.mem_def.mp hn]
  exact if_pos negative

/-- How a syscall accesses the first memory of the current module, if it does. -/
def Syscall.access? : Syscall → Option Access
  | .execve | .connect | .bind | .sendto => some .reading
  | .accept | .recvfrom | .nanosleep => some .writing
  | _ => none

theorem Syscall.isSome_access? (s : Syscall) : s.access?.isSome = s.usesMemory := by
  cases s <;> rfl

section

variable {m : Machine} {fault : Fault}

/-- A length is looked at before the memory. -/
theorem guestLength_bind {α : Type} {k : Nat → Except Fault α}
    (h : ∀ length, k length = .error fault) (n : Int32) :
    (guestLength n >>= k) = .error (if n < 0 then .invalidLength n.toInt else fault) := by
  unfold guestLength
  split
  · rfl
  · exact h _

/-- A syscall that cannot have the memory it uses is refused, for that or for the length before. -/
theorem Request.ofSyscall_without_memory {s : Syscall} (uses : s.usesMemory = true)
    (h : ∀ access ∈ s.access?, m.guestMemory access = .error fault) (v : Vector Int32 s.arity) :
    ofSyscall m s v = .error (s.unresolvedFault v fault) := by
  have hmemory {access : Access} (ha : s.access? = some access)
      (k : MemoryAddress × Memory → Except Fault Request) :
      (m.guestMemory access >>= k) = .error fault := bind_eq_error_iff.mpr (.inl (h access ha))
  cases s
  case execve => exact (hmemory rfl _ : execve m _ _ _ = _)
  case connect | bind => exact (hmemory rfl _ : staged m _ _ _ = _)
  case accept => exact (hmemory rfl _ : accept m _ _ _ = _)
  case sendto => exact guestLength_bind (fun _ => hmemory rfl _) v[2]
  case recvfrom | nanosleep => exact guestLength_bind (fun _ => hmemory rfl _) v[2]
  all_goals cases uses

end

theorem Syscall.unresolvedFault_of_nonnegative {s : Syscall} {v : Vector Int32 s.arity}
    {fault : Fault} (h : ∀ n ∈ s.dataLength? v, 0 ≤ n) : s.unresolvedFault v fault = fault := by
  unfold unresolvedFault
  split
  next n hn => exact if_neg (Int32.not_lt.mpr (h n hn))
  next => rfl

namespace Machine.Unresolved

variable {m : Machine} {fault : Fault}

theorem guestMemory (h : m.Unresolved fault) (access : Access) :
    m.guestMemory access = .error fault := by
  unfold Machine.guestMemory
  rw [bind_eq_error_iff]
  refine .inr ?_
  cases h with
  | @noMemory f hf hm => exact ⟨f, hf, by simp [GuestModule.memoryAt, hm, bind, Except.bind]⟩
  | @notFound f a hf ha hs =>
    have hcell : m.store.cells[a.index]? = none := Array.getElem?_eq_none hs
    have haddress : f.guestModule.memoryAt 0 = .ok a := by
      rw [GuestModule.memoryAt_eq_ok_iff, ← List.head?_eq_getElem?, ha]
    refine ⟨f, hf, bind_eq_error_iff.mpr (.inr ⟨a, haddress, bind_eq_error_iff.mpr (.inl ?_)⟩)⟩
    rw [Store.memory, Store.cell, hcell]

theorem ne_invalidLength (h : m.Unresolved fault) (length : Int) :
    fault ≠ .invalidLength length := by
  cases h <;> nofun

theorem unresolvedFault_eq_iff (h : m.Unresolved fault) {s : Syscall} {v : Vector Int32 s.arity} :
    s.unresolvedFault v fault = fault ↔ ∀ n ∈ s.dataLength? v, 0 ≤ n := by
  constructor
  · intro he n hn
    refine Int32.not_lt.mp fun hneg => ?_
    rw [Syscall.unresolvedFault_of_negative hn hneg] at he
    exact h.ne_invalidLength n.toInt he.symm
  · exact Syscall.unresolvedFault_of_nonnegative

/-- Every syscall that uses memory is refused, for the memory or for the length before it. -/
theorem ofSyscall (h : m.Unresolved fault) {s : Syscall} (uses : s.usesMemory = true)
    (v : Vector Int32 s.arity) : Request.ofSyscall m s v = .error (s.unresolvedFault v fault) :=
  Request.ofSyscall_without_memory uses (fun access _ => h.guestMemory access) v

end Machine.Unresolved

/-- A dispatch refused with a fault, with nothing called and nothing changed. -/
structure Outcome.RefusedFor (o : Outcome) (m : Machine) (number : UInt32) (fault : Fault) :
    Prop where
  ending : o.ending = .trapped ⟨number, fault, m.stack.snapshot⟩
  calls : o.calls = []
  machine : o.machine = m

theorem Outcome.RefusedFor.unique {o : Outcome} {m : Machine} {number : UInt32} {f g : Fault}
    (hf : o.RefusedFor m number f) (hg : o.RefusedFor m number g) : f = g := by
  have h := hf.ending.symm.trans hg.ending
  simp only [Ending.trapped.injEq, Trap.mk.injEq] at h
  exact h.2.1

namespace Machine

/-- A missing memory is what a permitted syscall with its operands in place is refused for, unless
it has data of a negative length, and then it is refused for that. -/
theorem dispatch_unresolved {m : Machine} {config : Config} {s : Syscall}
    {v : Vector Int32 s.arity} {rest : List Value} {fault : Fault} (uses : s.usesMemory = true)
    (permitted : config.permits s = true) (enough : s.arity ≤ m.stack.available)
    (operands : m.stack.operands = Stack.pushed v ++ rest) (unresolved : m.Unresolved fault)
    (host : Host) :
    ((m.dispatch host config s.number).RefusedFor m s.number fault ↔
      ∀ n ∈ s.dataLength? v, 0 ≤ n) ∧
    (∀ n ∈ s.dataLength? v, n < 0 →
      (m.dispatch host config s.number).RefusedFor m s.number (.invalidLength n.toInt)) := by
  have hpeek : m.stack.peekI32 s.arity = .ok v :=
    Stack.peekI32_eq_ok_iff.mpr ⟨enough, rest, operands⟩
  have hrefused : m.Refuses config s (s.unresolvedFault v fault)
      (.operands s v.toList :: s.warnings) :=
    .request permitted hpeek (unresolved.ofSyscall uses v)
  have hdispatch : (m.dispatch host config s.number).RefusedFor m s.number
      (s.unresolvedFault v fault) := by
    rw [hrefused.dispatch_eq]
    exact ⟨rfl, rfl, rfl⟩
  refine ⟨⟨fun h => ?_, fun hnonneg => ?_⟩, fun n hn negative => ?_⟩
  · exact unresolved.unresolvedFault_eq_iff.mp (hdispatch.unique h)
  · rwa [unresolved.unresolvedFault_eq_iff.mpr hnonneg] at hdispatch
  · rwa [Syscall.unresolvedFault_of_negative hn negative] at hdispatch

/-- A trap with six operands in a module that has its memory at an address, if it has one, and a
store that has none. -/
def lost (memories : List MemoryAddress) (length : Int32) : Machine where
  store := {}
  stack :=
    (({} : Stack).pushFrame ⟨⟨"guest", memories⟩, 0, [], 0⟩).pushAll
      [.i32 3, .i32 (-1), .i32 length, .i32 0, .i32 (-1), .i32 0]

theorem lost_unresolved (length : Int32) : (lost [⟨4⟩] length).Unresolved (.memoryNotFound ⟨4⟩) :=
  .notFound (f := ⟨⟨"guest", [⟨4⟩]⟩, 0, [], 0⟩) rfl rfl (Nat.zero_le 4)

theorem lost_recvfrom_refused :
    Syscall.recvfrom.usesMemory = true ∧ Config.permissive.permits .recvfrom = true ∧
    (lost [⟨4⟩] 16).Unresolved (.memoryNotFound ⟨4⟩) ∧
    ((lost [⟨4⟩] 16).dispatch (.replying ⟨0, 0, [], [], 0⟩) .permissive
      Syscall.recvfrom.number).RefusedFor (lost [⟨4⟩] 16) Syscall.recvfrom.number
        (.memoryNotFound ⟨4⟩) ∧
    ((lost [⟨4⟩] (-1)).dispatch (.replying ⟨0, 0, [], [], 0⟩) .permissive
      Syscall.recvfrom.number).RefusedFor (lost [⟨4⟩] (-1)) Syscall.recvfrom.number
        (.invalidLength (-1)) := by
  have permitted : Config.permissive.permits .recvfrom = true := by decide
  have operands (length : Int32) : (lost [⟨4⟩] length).stack.operands =
      Stack.pushed #v[3, -1, length, 0, -1, 0] ++ [] := rfl
  have hlong := dispatch_unresolved (s := .recvfrom) rfl permitted (by decide) (operands 16)
    (lost_unresolved 16) (.replying ⟨0, 0, [], [], 0⟩)
  have hnegative := dispatch_unresolved (s := .recvfrom) rfl permitted (by decide) (operands (-1))
    (lost_unresolved (-1)) (.replying ⟨0, 0, [], [], 0⟩)
  refine ⟨rfl, permitted, lost_unresolved 16, hlong.1.mpr ?_, hnegative.2 (-1) rfl (by decide)⟩
  rintro _ ⟨⟩
  decide

/-- With a negative length, sending and receiving do not notice that the module has no memory. -/
theorem negative_length_hides_missing_memory :
    (lost [] (-1)).Unresolved .noMemory ∧
    ∀ s ∈ [Syscall.sendto, .recvfrom, .nanosleep],
      s.usesMemory = true ∧ Config.permissive.permits s = true ∧
      s.arity ≤ (lost [] (-1)).stack.available ∧
      ((lost [] (-1)).dispatch (.replying ⟨0, 0, [], [], 0⟩) .permissive s.number).ending =
        .trapped ⟨s.number, .invalidLength (-1), (lost [] (-1)).stack.snapshot⟩ :=
  ⟨.noMemory (f := ⟨⟨"guest", []⟩, 0, [], 0⟩) rfl rfl, by decide⟩

end Machine

end GuestGate
