import GuestGate.Proofs.Dispatch

/-!
# Requests of two machines

Memories that hold the same bytes answer every read alike. So two machines whose own memories hold
the same bytes refuse a syscall for the same fault, or grant it as requests that differ in nothing
but where those memories lie.
-/

theorem Option.cases_of_rel {α β : Type} {R : α → β → Prop} {x : Option α} {y : Option β}
    (h : Option.Rel R x y) : (x = none ∧ y = none) ∨ ∃ a b, x = some a ∧ y = some b ∧ R a b := by
  cases h with
  | none => exact .inl ⟨rfl, rfl⟩
  | some hab => exact .inr ⟨_, _, rfl, rfl, hab⟩

namespace GuestGate

variable {α β γ δ : Type}

/-- Two results are the same fault, or values that stand in a relation. -/
inductive Matched (R : α → β → Prop) : Except Fault α → Except Fault β → Prop where
  | error (f : Fault) : Matched R (.error f) (.error f)
  | ok {a : α} {b : β} (h : R a b) : Matched R (.ok a) (.ok b)

namespace Matched

theorem bind {R : α → β → Prop} {S : γ → δ → Prop} {e : Except Fault α} {e' : Except Fault β}
    {k : α → Except Fault γ} {k' : β → Except Fault δ} (h : Matched R e e')
    (hk : ∀ a b, R a b → Matched S (k a) (k' b)) : Matched S (e >>= k) (e' >>= k') := by
  cases h with
  | error f => exact error f
  | ok hr => exact hk _ _ hr

/-- Two chains of checks that begin with the same check. -/
theorem bind_same {S : γ → δ → Prop} {e e' : Except Fault α} {k : α → Except Fault γ}
    {k' : α → Except Fault δ} (h : e = e') (hk : ∀ a, Matched S (k a) (k' a)) :
    Matched S (e >>= k) (e' >>= k') := by
  subst h
  cases e with
  | error f => exact error f
  | ok a => exact hk a

theorem of_error {R : α → β → Prop} {f : Fault} {e : Except Fault β}
    (h : Matched R (.error f) e) : e = .error f := by
  cases h
  rfl

theorem of_ok {R : α → β → Prop} {a : α} {e : Except Fault β} (h : Matched R (.ok a) e) :
    ∃ b, e = .ok b ∧ R a b := by
  cases h with
  | ok hr => exact ⟨_, rfl, hr⟩

end Matched

namespace Memory

/-- Two memories that no single read tells apart. -/
structure ReadsAlike (m n : Memory) : Prop where
  check : m.check = n.check
  slice : m.slice = n.slice
  readWord : m.readWord = n.readWord
  string : m.string = n.string
  entry : m.entry = n.entry

variable {m n : Memory}

/-- Reading sees the bytes of a memory and nothing else of it. -/
theorem readsAlike_of_bytes (h : m.bytes = n.bytes) : m.ReadsAlike n := by
  have hpages := pages_eq_of_bytes h
  obtain ⟨pages, maximum, contents, hp, hm⟩ := m
  obtain ⟨pages', maximum', contents', hp', hm'⟩ := n
  obtain rfl : pages = pages' := hpages
  obtain rfl : contents = contents' := Page.eq_of_row_eq h
  exact ⟨rfl, rfl, rfl, rfl, rfl⟩

theorem ReadsAlike.strings (h : m.ReadsAlike n) (offset : UInt32) :
    m.strings offset = n.strings offset := by
  fun_induction Memory.strings m offset with
  | case1 offset f he =>
    rw [h.entry] at he
    rw [strings_of_error he]
  | case2 offset he =>
    rw [h.entry] at he
    rw [strings_of_end he]
  | case3 offset s next he hn ih =>
    rw [h.entry] at he
    rw [ih, strings_of_entry he]

end Memory

section

variable {m n : Memory}

theorem ExecArgs.decode_congr (h : m.bytes = n.bytes) (filename argv envp : UInt32) :
    decode m filename argv envp = decode n filename argv envp := by
  have hr := Memory.readsAlike_of_bytes h
  simp only [decode, hr.string, hr.strings]

theorem stagedAddress_congr (h : m.bytes = n.bytes) (pointer length : Int32) :
    stagedAddress m pointer length = stagedAddress n pointer length := by
  have hr := Memory.readsAlike_of_bytes h
  simp only [stagedAddress, hr.slice]

theorem PeerSlot.ofOperands_congr (h : m.bytes = n.bytes) (offset lengthAt : Int32) :
    ofOperands m offset lengthAt = ofOperands n offset lengthAt := by
  have hr := Memory.readsAlike_of_bytes h
  simp only [ofOperands, hr.readWord, hr.check]

end

/-- Landings in memories with the same bytes, at the same places there. -/
structure Landing.Alike (l k : Landing) : Prop where
  bytes : l.memory.bytes = k.memory.bytes
  data : l.data = k.data
  peer : l.peer = k.peer

/-- Requests that make the same call and land alike. -/
structure Request.Alike (r q : Request) : Prop where
  call : r.call = q.call
  landing : Option.Rel Landing.Alike r.landing q.landing

namespace Machine

/-- The cell of the first memory of the current module. -/
def ownCell? (m : Machine) : Option Cell := m.ownAddress?.bind fun a => m.store.cells[a.index]?

/-- Two machines whose own memories have the same bytes and are held alike. -/
def OwnAlike (m n : Machine) : Prop :=
  ∃ c d, m.ownCell? = some c ∧ n.ownCell? = some d ∧ c.memory.bytes = d.memory.bytes ∧
    c.hold = d.hold

variable {m n : Machine}

theorem guestMemory_of_ownCell {c : Cell} (h : m.ownCell? = some c) (access : Access) :
    ∃ a, m.ownAddress? = some a ∧ m.store.cells[a.index]? = some c ∧
      m.guestMemory access =
        if c.hold.admits access then .ok (a, c.memory) else .error (Store.inUse access) := by
  obtain ⟨a, ha, hc⟩ := Option.bind_eq_some_iff.mp h
  refine ⟨a, ha, hc, ?_⟩
  rw [guestMemory_of_own ha, Store.memory, Store.cell, hc]
  dsimp only
  split <;> rfl

theorem OwnAlike.guestMemory (h : m.OwnAlike n) (access : Access) :
    Matched (fun x y => x.2.bytes = y.2.bytes) (m.guestMemory access) (n.guestMemory access) := by
  obtain ⟨c, d, hc, hd, hb, hh⟩ := h
  obtain ⟨a, -, -, hm⟩ := guestMemory_of_ownCell hc access
  obtain ⟨b, -, -, hn⟩ := guestMemory_of_ownCell hd access
  rw [hm, hn, hh]
  split
  · exact .ok hb
  · exact .error _

end Machine

namespace Request

variable {m n : Machine}

theorem alike_of_call (call : HostCall) :
    Matched Alike (.ok { call := call }) (.ok { call := call }) := .ok ⟨rfl, .none⟩

theorem execve_matched (h : m.OwnAlike n) (filename argv envp : Int32) :
    Matched Alike (execve m filename argv envp) (execve n filename argv envp) := by
  refine .bind (h.guestMemory .reading) fun x y hb => ?_
  refine .bind_same (ExecArgs.decode_congr hb ..) fun args => ?_
  exact alike_of_call (.execve args)

theorem staged_matched (h : m.OwnAlike n) (call : SocketAddress → HostCall)
    (pointer length : Int32) :
    Matched Alike (staged m call pointer length) (staged n call pointer length) := by
  refine .bind (h.guestMemory .reading) fun x y hb => ?_
  refine .bind_same (stagedAddress_congr hb ..) fun address => ?_
  exact alike_of_call (call address)

theorem accept_matched (h : m.OwnAlike n) (fd pointer lengthAt : Int32) :
    Matched Alike (accept m fd pointer lengthAt) (accept n fd pointer lengthAt) := by
  refine .bind (h.guestMemory .writing) fun x y hb => ?_
  refine .bind_same (PeerSlot.ofOperands_congr hb ..) fun peer => ?_
  exact .ok ⟨rfl, .some ⟨hb, rfl, rfl⟩⟩

theorem sendto_matched (h : m.OwnAlike n)
    (fd pointer length flags destination addressLength : Int32) :
    Matched Alike (sendto m fd pointer length flags destination addressLength)
      (sendto n fd pointer length flags destination addressLength) := by
  refine .bind_same rfl fun k => .bind (h.guestMemory .reading) fun x y hb => ?_
  have hr := Memory.readsAlike_of_bytes hb
  refine .bind_same (congrFun (congrFun hr.slice _) _) fun data => ?_
  by_cases hz : addressLength = 0
  · simp only [hz, if_true]
    exact alike_of_call (.sendto fd data flags none)
  · simp only [hz, if_false]
    refine .bind_same (stagedAddress_congr hb ..) fun address => ?_
    exact alike_of_call (.sendto fd data flags (some address))

theorem recvfrom_matched (h : m.OwnAlike n) (fd pointer length flags source lengthAt : Int32) :
    Matched Alike (recvfrom m fd pointer length flags source lengthAt)
      (recvfrom n fd pointer length flags source lengthAt) := by
  refine .bind_same rfl fun k => .bind (h.guestMemory .writing) fun x y hb => ?_
  have hr := Memory.readsAlike_of_bytes hb
  refine .bind_same (congrFun (congrFun hr.check _) _) fun _ => ?_
  refine .bind_same (PeerSlot.ofOperands_congr hb ..) fun peer => ?_
  exact .ok ⟨rfl, .some ⟨hb, rfl, rfl⟩⟩

/-- A syscall that takes no pointer looks at no memory, and the rest at their own alone. -/
theorem ofSyscall_matched {s : Syscall} (h : s.usesMemory = true → m.OwnAlike n)
    (v : Vector Int32 s.arity) : Matched Alike (ofSyscall m s v) (ofSyscall n s v) := by
  cases s
  case execve => exact execve_matched (h rfl) ..
  case connect | bind => exact staged_matched (h rfl) ..
  case accept => exact accept_matched (h rfl) ..
  case sendto => exact sendto_matched (h rfl) ..
  case recvfrom | nanosleep => exact recvfrom_matched (h rfl) ..
  all_goals exact alike_of_call _

end Request

end GuestGate
