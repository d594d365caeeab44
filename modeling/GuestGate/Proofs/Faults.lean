import GuestGate.Dispatch.Request
import GuestGate.Proofs.Checks

/-!
# Faults of checks

What each access to a guest's memory can fail with, and a predicate on the faults of a whole chain
of checks. No check made before a host call says that a host call failed.
-/

namespace GuestGate

variable {α β : Type}

/-- Every fault of a computation has a property. -/
def FaultsSatisfy (P : Fault → Prop) (e : Except Fault α) : Prop := ∀ f, e = .error f → P f

namespace FaultsSatisfy

variable {P : Fault → Prop}

theorem ok (a : α) : FaultsSatisfy P (.ok a : Except Fault α) := by
  intro f h
  cases h

theorem error {f : Fault} (h : P f) : FaultsSatisfy P (.error f : Except Fault α) := by
  intro g hg
  cases hg
  exact h

theorem mono {Q : Fault → Prop} {e : Except Fault α} (he : FaultsSatisfy P e)
    (h : ∀ f, P f → Q f) : FaultsSatisfy Q e := fun f hf => h f (he f hf)

theorem map {e : Except Fault α} {g : α → β} (he : FaultsSatisfy P e) :
    FaultsSatisfy P (e.map g) := fun f hf => he f (map_eq_error_iff.mp hf)

theorem bind {e : Except Fault α} {k : α → Except Fault β} (he : FaultsSatisfy P e)
    (hk : ∀ a, e = .ok a → FaultsSatisfy P (k a)) : FaultsSatisfy P (e >>= k) := by
  cases e with
  | error g => exact error (he g rfl)
  | ok a => exact hk a rfl

theorem mapM {k : α → Except Fault β} (hk : ∀ a, FaultsSatisfy P (k a)) (l : List α) :
    FaultsSatisfy P (l.mapM k) := by
  induction l with
  | nil => exact ok []
  | cons a rest ih =>
    rw [List.mapM_cons]
    exact bind (hk a) fun b _ => bind ih fun bs _ => ok (b :: bs)

end FaultsSatisfy

namespace Memory

variable {m : Memory} {offset : UInt32} {length : Nat} {f : Fault}

theorem check_eq_ok_iff_contains {u : Unit} :
    m.check offset length = .ok u ↔ m.Contains offset length := check_eq_ok_iff

theorem check_eq_error_iff :
    m.check offset length = .error f ↔
      ¬m.Contains offset length ∧ f = m.outOfBounds offset length := by
  unfold check
  split <;> simp_all [eq_comm]

theorem slice_eq_error_iff :
    m.slice offset length = .error f ↔
      ¬m.Contains offset length ∧ f = m.outOfBounds offset length := by
  unfold slice
  split <;> simp_all [eq_comm]

theorem readWord_eq_error_iff :
    m.readWord offset = .error f ↔ ¬m.Contains offset 4 ∧ f = m.outOfBounds offset 4 := by
  unfold readWord
  split <;> simp_all [eq_comm]

theorem contains_of_readWord {n : UInt32} (h : m.readWord offset = .ok n) :
    m.Contains offset 4 := by
  unfold readWord at h
  split at h
  next hc => exact hc
  · cases h

/-- A string with no NUL is reported with one byte more than there is. -/
theorem string_error (h : m.string offset = .error f) :
    ∃ length, ¬m.Contains offset length ∧ f = m.outOfBounds offset length := by
  unfold string at h
  split at h
  next hc =>
    split at h
    · cases h
    · cases h
      refine ⟨_, ?_, rfl⟩
      simp only [Contains] at hc ⊢
      omega
  next hc =>
    cases h
    exact ⟨0, hc, rfl⟩

theorem entry_error (h : m.entry offset = .error f) :
    ∃ length, f = m.outOfBounds offset length := by
  unfold entry at h
  split at h
  next hs =>
    cases h
    obtain ⟨length, -, hf⟩ := string_error hs
    exact ⟨length, hf⟩
  · cases h
  · split at h
    · cases h
    · cases h; exact ⟨_, rfl⟩

theorem strings_error (h : m.strings offset = .error f) :
    ∃ cursor length, f = m.outOfBounds cursor length := by
  fun_induction strings m offset with
  | case1 offset g hg =>
    cases h
    exact ⟨offset, entry_error hg⟩
  | case2 => cases h
  | case3 offset s next hn he ih =>
    cases hr : m.strings next with
    | error g =>
      simp only [hr, Except.map, Except.error.injEq] at h
      subst h
      exact ih hr
    | ok rest => simp [hr, Except.map] at h

end Memory

/-- Whether a fault says that a host call was made and gave nothing. -/
def Fault.blamesHost : Fault → Bool
  | .syscallFailed _ => true
  | _ => false

/-- The faults of a computation say nothing about a host call. -/
abbrev Hostless (e : Except Fault α) : Prop := FaultsSatisfy (fun f => f.blamesHost = false) e

/-- Whether a fault is one of a request: its memory, a range of it, or a length. -/
def Fault.ofRequest : Fault → Bool
  | .noMemory | .memoryNotFound _ | .outOfBounds .. | .invalidLength _ | .memory _ | .noFrame => true
  | _ => false

/-- The faults of a computation are those of a request. -/
abbrev Requesting (e : Except Fault α) : Prop := FaultsSatisfy (fun f => f.ofRequest = true) e

/-! ## Faults of a request -/

/-- A property of every fault of a request that is no report of an access. -/
structure CoversRequests (P : Fault → Prop) : Prop where
  noFrame : P .noFrame
  noMemory : P .noMemory
  memoryNotFound : ∀ a, P (.memoryNotFound a)
  memory : ∀ problem, P (.memory problem)
  invalidLength : ∀ length, P (.invalidLength length)

/-- A property of every report of a range that is not inside a memory. -/
def Memory.CoversAccesses (m : Memory) (P : Fault → Prop) : Prop :=
  ∀ offset length, ¬m.Contains offset length → P (m.outOfBounds offset length)

section

variable {P : Fault → Prop}

namespace Memory

variable {m : Memory} {offset : UInt32} {length : Nat}

theorem check_faults (hm : m.CoversAccesses P) : FaultsSatisfy P (m.check offset length) := by
  intro f h
  obtain ⟨hc, rfl⟩ := check_eq_error_iff.mp h
  exact hm _ _ hc

theorem slice_faults (hm : m.CoversAccesses P) : FaultsSatisfy P (m.slice offset length) := by
  intro f h
  obtain ⟨hc, rfl⟩ := slice_eq_error_iff.mp h
  exact hm _ _ hc

theorem readWord_faults (hm : m.CoversAccesses P) : FaultsSatisfy P (m.readWord offset) := by
  intro f h
  obtain ⟨hc, rfl⟩ := readWord_eq_error_iff.mp h
  exact hm _ _ hc

theorem string_faults (hm : m.CoversAccesses P) : FaultsSatisfy P (m.string offset) := by
  intro f h
  obtain ⟨length, hc, rfl⟩ := string_error h
  exact hm _ _ hc

end Memory

theorem guestLength_faults (h : CoversRequests P) {n : Int32} :
    FaultsSatisfy P (guestLength n) := by
  unfold guestLength
  split
  · exact .error (h.invalidLength _)
  · exact .ok _

theorem SocketAddress.ofGuest_faults (h : CoversRequests P) {bytes : List UInt8} :
    FaultsSatisfy P (ofGuest bytes) := by
  unfold ofGuest
  split
  · exact .error (h.invalidLength _)
  · exact .ok _

theorem ExecArgs.hostString_faults (h : CoversRequests P) (s : List UInt8) :
    FaultsSatisfy P (hostString s) := by
  unfold hostString
  split
  · exact .ok _
  · exact .error (h.memory _)

theorem stagedAddress_faults (h : CoversRequests P) {m : Memory} (hm : m.CoversAccesses P)
    {pointer length : Int32} : FaultsSatisfy P (stagedAddress m pointer length) :=
  .bind (guestLength_faults h) fun _ _ => .bind (Memory.slice_faults hm) fun _ _ =>
    SocketAddress.ofGuest_faults h

theorem PeerSlot.ofOperands_faults {m : Memory} (hm : m.CoversAccesses P)
    {offset lengthAt : Int32} : FaultsSatisfy P (PeerSlot.ofOperands m offset lengthAt) := by
  unfold PeerSlot.ofOperands
  split
  · exact .ok _
  · exact .bind (Memory.readWord_faults hm) fun _ _ =>
      .bind (Memory.check_faults hm) fun _ _ => .ok _

theorem Stack.currentFrame_faults (h : CoversRequests P) {s : Stack} :
    FaultsSatisfy P s.currentFrame := by
  unfold currentFrame
  split
  · exact .error h.noFrame
  · exact .ok _

theorem GuestModule.memoryAt_faults (h : CoversRequests P) {g : GuestModule} {index : Nat} :
    FaultsSatisfy P (g.memoryAt index) := by
  unfold memoryAt
  split
  · exact .ok _
  · exact .error h.noMemory

theorem Store.memory_faults (h : CoversRequests P) {s : Store} {a : MemoryAddress}
    {access : Access} : FaultsSatisfy P (s.memory a access) := by
  unfold memory cell
  cases s.cells[a.index]? with
  | none => exact .error (h.memoryNotFound a)
  | some c =>
    dsimp only
    split
    · exact .ok _
    · cases access
      · exact .error (h.memory _)
      · exact .error (h.memory _)

variable {m : Machine}

theorem Machine.guestMemory_faults (h : CoversRequests P) {access : Access} :
    FaultsSatisfy P (m.guestMemory access) :=
  .bind (Stack.currentFrame_faults h) fun _ _ => .bind (GuestModule.memoryAt_faults h) fun _ _ =>
    .bind (Store.memory_faults h) fun _ _ => .ok _

/-- A property of every report of an access to the guest's own memory. -/
def Machine.CoversAccesses (m : Machine) (P : Fault → Prop) : Prop :=
  ∀ access a memory, m.guestMemory access = .ok (a, memory) → memory.CoversAccesses P

namespace Request

theorem staged_faults (h : CoversRequests P) (hm : m.CoversAccesses P)
    {call : SocketAddress → HostCall} {pointer length : Int32} :
    FaultsSatisfy P (staged m call pointer length) :=
  .bind (Machine.guestMemory_faults h) fun _ hr =>
    .bind (stagedAddress_faults h (hm _ _ _ hr)) fun _ _ => .ok _

theorem accept_faults (h : CoversRequests P) (hm : m.CoversAccesses P)
    {fd pointer lengthAt : Int32} : FaultsSatisfy P (accept m fd pointer lengthAt) :=
  .bind (Machine.guestMemory_faults h) fun _ hr =>
    .bind (PeerSlot.ofOperands_faults (hm _ _ _ hr)) fun _ _ => .ok _

theorem recvfrom_faults (h : CoversRequests P) (hm : m.CoversAccesses P)
    {fd pointer length flags source lengthAt : Int32} :
    FaultsSatisfy P (recvfrom m fd pointer length flags source lengthAt) :=
  .bind (guestLength_faults h) fun _ _ => .bind (Machine.guestMemory_faults h) fun _ hr =>
    .bind (Memory.check_faults (hm _ _ _ hr)) fun _ _ =>
    .bind (PeerSlot.ofOperands_faults (hm _ _ _ hr)) fun _ _ => .ok _

theorem sendto_faults (h : CoversRequests P) (hm : m.CoversAccesses P)
    {fd pointer length flags destination addressLength : Int32} :
    FaultsSatisfy P (sendto m fd pointer length flags destination addressLength) := by
  refine .bind (guestLength_faults h) fun _ _ => .bind (Machine.guestMemory_faults h) fun _ hr =>
    .bind (Memory.slice_faults (hm _ _ _ hr)) fun _ _ => ?_
  split
  · exact .ok _
  · exact .bind (stagedAddress_faults h (hm _ _ _ hr)) fun _ _ => .ok _

/-- A request is refused before its memory is read, or for a range outside of it; one that reads
strings can be refused for other ranges too. -/
theorem ofSyscall_faults (h : CoversRequests P) (hm : m.CoversAccesses P) {s : Syscall}
    {v : Vector Int32 s.arity} (hx : s = .execve → FaultsSatisfy P (ofSyscall m s v)) :
    FaultsSatisfy P (ofSyscall m s v) := by
  cases s
  case execve => exact hx rfl
  case connect | bind => exact staged_faults h hm
  case accept => exact accept_faults h hm
  case sendto => exact sendto_faults h hm
  case recvfrom | nanosleep => exact recvfrom_faults h hm
  all_goals exact .ok _

end Request

end

theorem coversRequests_ofRequest : CoversRequests fun f => f.ofRequest = true :=
  ⟨rfl, rfl, fun _ => rfl, fun _ => rfl, fun _ => rfl⟩

theorem Memory.strings_requesting {m : Memory} {offset : UInt32} :
    Requesting (m.strings offset) := by
  intro f h
  obtain ⟨cursor, length, rfl⟩ := strings_error h
  rfl

theorem ExecArgs.decode_requesting {m : Memory} {filename argv envp : UInt32} :
    Requesting (ExecArgs.decode m filename argv envp) :=
  have hclean (s : List UInt8) : Requesting (hostString s) :=
    hostString_faults coversRequests_ofRequest s
  .bind (Memory.string_faults fun _ _ _ => rfl) fun _ _ => .bind (hclean _) fun _ _ =>
    .bind Memory.strings_requesting fun _ _ => .bind (.mapM hclean _) fun _ _ =>
    .bind Memory.strings_requesting fun _ _ => .bind (.mapM hclean _) fun _ _ => .ok _

namespace Request

variable {m : Machine} {s : Syscall} {v : Vector Int32 s.arity}

theorem execve_requesting {filename argv envp : Int32} :
    Requesting (execve m filename argv envp) :=
  .bind (Machine.guestMemory_faults coversRequests_ofRequest) fun _ _ =>
    .bind ExecArgs.decode_requesting fun _ _ => .ok _

theorem ofSyscall_requesting : Requesting (ofSyscall m s v) := by
  refine ofSyscall_faults coversRequests_ofRequest (fun _ _ _ _ _ _ _ => rfl) ?_
  rintro rfl
  exact execve_requesting

/-- A request is refused for what the guest asked, never for what the host would say. -/
theorem ofSyscall_hostless : Hostless (ofSyscall m s v) := by
  intro f h
  have hr := ofSyscall_requesting f h
  cases f <;> first | rfl | cases hr

end Request

end GuestGate
