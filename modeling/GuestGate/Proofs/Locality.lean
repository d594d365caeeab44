import GuestGate.Proofs.CopyBack
import GuestGate.Proofs.Matching

/-!
# What a syscall sees and touches

A syscall sees its own operands and the bytes of its own memory, and leaves everything else as it
was. Two machines that differ elsewhere cannot be told apart by what a dispatch asks of the host,
by how it ends or by what it writes.
-/

namespace GuestGate

/-- The same cell but for the bytes of its memory. -/
structure Cell.Kept (before after : Cell) : Prop where
  hold : after.hold = before.hold
  pages : after.memory.pages = before.memory.pages
  maximum : after.memory.maximum = before.memory.maximum

/-- A dispatch that changed the operands of its syscall, the bytes of the memory that the syscall
uses, if it uses one, and nothing else. -/
structure Outcome.Confined (o : Outcome) (m : Machine) (s : Syscall) : Prop where
  operands : ∃ top, o.machine.stack.operands = top ++ m.stack.operands.drop s.arity
  frames : o.machine.stack.frames = m.stack.frames
  cells : ∀ i : Nat, Option.Rel Cell.Kept m.store.cells[i]? o.machine.store.cells[i]?
  others : ∀ i : Nat, (s.usesMemory = true → m.ownAddress? ≠ some ⟨i⟩) →
    o.machine.store.cells[i]? = m.store.cells[i]?

/-- An ending without the stack that a trap shows. -/
def Ending.bare : Ending → Ending
  | .trapped t => .trapped { t with snapshot := {} }
  | e => e

/-- The same calls, ending, records, results and bytes, each over what was there. -/
structure Outcome.Agrees (o p : Outcome) (m n : Machine) (s : Syscall) : Prop where
  calls : o.calls = p.calls
  ending : o.ending.bare = p.ending.bare
  log : ∃ rest, o.log = .invoked s m.stack.available :: rest ∧
    p.log = .invoked s n.stack.available :: rest
  operands : ∃ top, o.machine.stack.operands = top ++ m.stack.operands.drop s.arity ∧
    p.machine.stack.operands = top ++ n.stack.operands.drop s.arity ∧
    (o.ending = .returned → ∃ k, top = [.i32 k])
  memory : s.usesMemory = true → o.machine.OwnAlike p.machine

/-- All that a syscall can see is the same in two machines. -/
structure Machine.Alike (m n : Machine) (s : Syscall) : Prop where
  enough : s.arity ≤ m.stack.available ∧ s.arity ≤ n.stack.available
  operands : m.stack.operands.take s.arity = n.stack.operands.take s.arity
  memory : s.usesMemory = true → m.OwnAlike n

namespace Cell.Kept

theorem refl (c : Cell) : c.Kept c := ⟨rfl, rfl, rfl⟩

theorem rel_refl (c : Option Cell) : Option.Rel Kept c c := by
  cases c with
  | none => exact .none
  | some c => exact .some (refl c)

end Cell.Kept

namespace Request

variable {m : Machine} {r : Request} {s : Syscall} {v : Vector Int32 s.arity} {l : Landing}

theorem usesMemory_of_landing (h : ofSyscall m s v = .ok r) (hl : l ∈ r.landing) :
    s.usesMemory = true := by
  cases s
  case execve | connect | bind | accept | sendto | recvfrom | nanosleep => rfl
  all_goals
    cases h
    cases hl

/-- An answer changes no cell but that of the machine's own memory, and only its bytes. -/
theorem storeAfter_kept (h : ∀ l ∈ r.landing, l.Sound m) (reply : HostReply) (i : Nat) :
    Option.Rel Cell.Kept m.store.cells[i]? (r.storeAfter m.store reply).cells[i]? := by
  unfold storeAfter
  cases hl : r.landing with
  | none => exact Cell.Kept.rel_refl _
  | some l =>
    obtain ⟨-, hm⟩ := Machine.guestMemory_eq_ok_iff.mp (h l hl).resolved
    obtain ⟨c, hc, -, hcm⟩ := Store.memory_eq_ok_iff.mp hm
    dsimp only
    rw [Store.getElem?_replace]
    by_cases hi : l.address.index = i
    · subst hi
      rw [if_pos rfl, hc]
      refine .some ⟨rfl, ?_, ?_⟩
      · rw [hcm, pages_settled]
      · rw [hcm, maximum_settled]
    · rw [if_neg hi]
      exact Cell.Kept.rel_refl _

theorem storeAfter_others (h : ∀ l ∈ r.landing, l.Sound m) (reply : HostReply) {i : Nat}
    (hi : ∀ l ∈ r.landing, m.ownAddress? ≠ some ⟨i⟩) :
    (r.storeAfter m.store reply).cells[i]? = m.store.cells[i]? := by
  unfold storeAfter
  cases hl : r.landing with
  | none => rfl
  | some l =>
    obtain ⟨ha, -⟩ := Machine.guestMemory_eq_ok_iff.mp (h l hl).resolved
    have hne : l.address.index ≠ i := by
      rintro rfl
      exact hi l hl ha
    dsimp only
    rw [Store.getElem?_replace, if_neg hne]

end Request

namespace Machine

variable {m : Machine} {config : Config} {s : Syscall} {v : Vector Int32 s.arity} {r : Request}

theorem trap_confined (m : Machine) (number : UInt32) (f : Fault) (log : List LogEvent) :
    (m.trap number f [] log).Confined m s :=
  ⟨⟨m.stack.operands.take s.arity, (List.take_append_drop ..).symm⟩, rfl,
    fun _ => Cell.Kept.rel_refl _, fun _ _ => rfl⟩

theorem Passes.confined (h : m.Passes config s v r) (host : Host) :
    (m.dispatch host config s.number).Confined m s := by
  rw [h.dispatch_eq]
  rcases r.call.exits_or_not with ⟨status, hx⟩ | hne
  · rw [perform_exit host _ _ hx]
    exact ⟨⟨[], rfl⟩, rfl, fun _ => Cell.Kept.rel_refl _, fun _ _ => rfl⟩
  have hs := perform_store (m := m.taken s) h.faithful.landing hne host s.number
    (s.preamble m.stack.available v r)
  refine ⟨?_, perform_frames .., fun i => ?_, fun i hi => ?_⟩
  · rw [perform_eq h.faithful.landing hne]
    cases r.call.result (host.answer r.call) with
    | error f => exact ⟨[], rfl⟩
    | ok n => exact ⟨[.i32 n], rfl⟩
  · rw [hs]
    exact Request.storeAfter_kept h.faithful.landing _ i
  · rw [hs]
    refine Request.storeAfter_others h.faithful.landing _ fun l hl => ?_
    exact hi (Request.usesMemory_of_landing h.granted hl)

theorem dispatch_confined (m : Machine) (host : Host) (config : Config) (s : Syscall) :
    (m.dispatch host config s.number).Confined m s := by
  rcases m.refuses_or_passes config s with ⟨f, log, hr⟩ | ⟨v, r, hp⟩
  · rw [hr.dispatch_eq]
    exact m.trap_confined ..
  · exact hp.confined host

end Machine

theorem Landing.Alike.stored {l k : Landing} (h : l.Alike k) (reply : HostReply) :
    (l.stored reply).bytes = (k.stored reply).bytes := by
  unfold Landing.stored
  rw [h.data]
  cases k.data with
  | none => exact h.bytes
  | some range =>
    dsimp only
    rw [Memory.bytes_put, Memory.bytes_put, h.bytes]

namespace Request

variable {r q : Request}

theorem Alike.settled (h : r.Alike q) {l k : Landing} (hl : l.Alike k) (reply : HostReply) :
    (r.settled l reply).bytes = (q.settled k reply).bytes := by
  have hs := hl.stored reply
  unfold Request.settled
  rw [h.call, hl.peer]
  cases q.call.outcome reply with
  | error failure => exact hs
  | ok value =>
    cases k.peer with
    | none => exact hs
    | some slot =>
      dsimp only
      rw [PeerSlot.bytes_written, PeerSlot.bytes_written, hs]

theorem Alike.peer (h : r.Alike q) : r.landing.bind Landing.peer = q.landing.bind Landing.peer := by
  rcases Option.cases_of_rel h.landing with ⟨hr, hq⟩ | ⟨l, k, hr, hq, hlk⟩
  · rw [hr, hq]
  · rw [hr, hq]
    exact hlk.peer

theorem Alike.records (h : r.Alike q) (reply : HostReply) : r.records reply = q.records reply := by
  unfold Request.records
  rw [h.call, h.peer]

/-- What becomes of the machine's own memory. -/
def ownAfter (r : Request) (before : Memory) (reply : HostReply) : Memory :=
  match r.landing with
  | none => before
  | some l => r.settled l reply

theorem Alike.ownAfter (h : r.Alike q) {b c : Memory} (hb : b.bytes = c.bytes) (reply : HostReply) :
    (r.ownAfter b reply).bytes = (q.ownAfter c reply).bytes := by
  unfold Request.ownAfter
  rcases Option.cases_of_rel h.landing with ⟨hr, hq⟩ | ⟨l, k, hr, hq, hlk⟩
  · rw [hr, hq]
    exact hb
  · rw [hr, hq]
    exact h.settled hlk reply

end Request

namespace Machine

variable {m n : Machine} {config : Config} {s : Syscall} {v : Vector Int32 s.arity}
  {r q : Request} {f : Fault} {log : List LogEvent}

theorem ownCell?_settled (h : ∀ l ∈ r.landing, l.Sound m) {c : Cell} (hc : m.ownCell? = some c)
    (host : Host) :
    (m.settled r host).ownCell? =
      some { c with memory := r.ownAfter c.memory (host.answer r.call) } := by
  unfold Request.ownAfter settled Request.storeAfter
  cases hl : r.landing with
  | none => exact hc
  | some l =>
    obtain ⟨ha, -⟩ := guestMemory_eq_ok_iff.mp (h l hl).resolved
    have hcell : m.store.cells[l.address.index]? = some c := by
      rw [ownCell?, ha] at hc
      exact hc
    change m.ownAddress?.bind _ = _
    rw [ha, Option.bind_some, Store.getElem?_replace, if_pos rfl, hcell]
    rfl

theorem OwnAlike.settled (h : m.OwnAlike n) (hr : r.Alike q) (hm : ∀ l ∈ r.landing, l.Sound m)
    (hn : ∀ l ∈ q.landing, l.Sound n) (host : Host) :
    (m.settled r host).OwnAlike (n.settled q host) := by
  obtain ⟨c, d, hc, hd, hb, hh⟩ := h
  refine ⟨_, _, ownCell?_settled hm hc host, ownCell?_settled hn hd host, ?_, hh⟩
  rw [hr.call]
  exact hr.ownAfter hb _

namespace Alike

theorem peekI32 (h : m.Alike n s) : m.stack.peekI32 s.arity = n.stack.peekI32 s.arity := by
  rw [Stack.peekI32_of_le h.enough.1, Stack.peekI32_of_le h.enough.2, h.operands]

theorem refuses (h : m.Alike n s) (hr : m.Refuses config s f log) : n.Refuses config s f log := by
  cases hr with
  | denied hc => exact .denied hc
  | operands hc ho => exact .operands hc (h.peekI32 ▸ ho)
  | @request v f hc ho hf =>
    have hm := Request.ofSyscall_matched h.memory v
    rw [hf] at hm
    exact .request hc (h.peekI32 ▸ ho) hm.of_error

theorem passes (h : m.Alike n s) (hp : m.Passes config s v r) :
    ∃ q, n.Passes config s v q ∧ r.Alike q := by
  have hm := Request.ofSyscall_matched h.memory v
  rw [hp.granted] at hm
  obtain ⟨q, hq, hr⟩ := hm.of_ok
  exact ⟨q, ⟨hp.permitted, h.peekI32 ▸ hp.operands, hq⟩, hr⟩

theorem trap_agrees (h : m.Alike n s) (number : UInt32) (f : Fault) (log : List LogEvent) :
    (m.trap number f [] (.invoked s m.stack.available :: log)).Agrees
      (n.trap number f [] (.invoked s n.stack.available :: log)) m n s := by
  refine ⟨rfl, rfl, ⟨log, rfl, rfl⟩, ⟨m.stack.operands.take s.arity, ?_, ?_, nofun⟩, h.memory⟩
  · exact (List.take_append_drop ..).symm
  · rw [h.operands]
    exact (List.take_append_drop ..).symm

theorem passes_agrees (h : m.Alike n s) (hp : m.Passes config s v r) (hq : n.Passes config s v q)
    (hr : r.Alike q) (host : Host) :
    (m.dispatch host config s.number).Agrees (n.dispatch host config s.number) m n s := by
  have hm := hp.faithful.landing
  have hn := hq.faithful.landing
  have hlog (k : Nat) : s.preamble k v r = .invoked s k :: (s.preamble 0 v q).tail := by
    rw [Syscall.preamble, hr.call]
    rfl
  have hlog' (k : Nat) : s.preamble k v q = .invoked s k :: (s.preamble 0 v q).tail := rfl
  rw [hp.dispatch_eq, hq.dispatch_eq, hlog, hlog']
  rcases q.call.exits_or_not with ⟨status, hx⟩ | hne
  · rw [perform_exit host _ _ hx, perform_exit host _ _ (hr.call.trans hx)]
    exact ⟨rfl, rfl, ⟨_, rfl, rfl⟩, ⟨[], rfl, rfl, nofun⟩, h.memory⟩
  have hown (hu : s.usesMemory = true) :
      ((m.taken s).settled r host).OwnAlike ((n.taken s).settled q host) :=
    (h.memory hu).settled hr hm hn host
  rw [perform_eq hm (hr.call ▸ hne), perform_eq hn hne, hr.call, hr.records]
  cases q.call.result (host.answer q.call) with
  | error f => exact ⟨rfl, rfl, ⟨_, rfl, rfl⟩, ⟨[], rfl, rfl, nofun⟩, hown⟩
  | ok k => exact ⟨rfl, rfl, ⟨_, rfl, rfl⟩, ⟨[.i32 k], rfl, rfl, fun _ => ⟨k, rfl⟩⟩, hown⟩

end Alike

/-- Two machines alike in all that a syscall can see have it ask the same of the host, end the same
way and write the same bytes, and nothing else changes in either. -/
theorem dispatch_noninterference (alike : m.Alike n s) (host : Host) (config : Config) :
    (m.dispatch host config s.number).Agrees (n.dispatch host config s.number) m n s ∧
      (m.dispatch host config s.number).Confined m s ∧
      (n.dispatch host config s.number).Confined n s := by
  refine ⟨?_, m.dispatch_confined host config s, n.dispatch_confined host config s⟩
  rcases m.refuses_or_passes config s with ⟨f, log, hr⟩ | ⟨v, r, hp⟩
  · rw [hr.dispatch_eq, (alike.refuses hr).dispatch_eq]
    exact alike.trap_agrees ..
  · obtain ⟨q, hq, hr⟩ := alike.passes hp
    exact alike.passes_agrees hp hq hr host

end Machine

/-- The bytes of `sixteenAtEight` with room to grow. -/
def Memory.growable : Memory :=
  ⟨sixteenAtEight.pages, some 3, sixteenAtEight.contents,
    by rw [pages_sixteenAtEight]; decide, by decide⟩

theorem Memory.bytes_growable : growable.bytes = sixteenAtEight.bytes := by
  rw [growable, bytes, bytes]

namespace Machine

/-- The receive of `overlapping` within another call, by a module whose memory comes second in the
store, after one that is held. -/
def elsewhere : Machine where
  store := ⟨#[{ memory := .blank 2 (by decide), hold := .writer }, { memory := .growable }]⟩
  stack :=
    (((({} : Stack).pushFrame ⟨⟨"outer", []⟩, 2, [.f32 0], 0⟩).pushAll [.i64 7, .i32 9]).pushFrame
      ⟨⟨"inner", [⟨1⟩]⟩, 5, [.i32 1], 0⟩).pushAll
        [.i32 3, .i32 6, .i32 4, .i32 0, .i32 4, .i32 8]

theorem overlapping_alike : overlapping.Alike elsewhere .recvfrom := by
  have hm : overlapping.ownCell? = some { memory := .sixteenAtEight } := rfl
  have hn : elsewhere.ownCell? = some { memory := .growable } := rfl
  exact ⟨⟨by decide, by decide⟩, rfl, fun _ => ⟨_, _, hm, hn, Memory.bytes_growable.symm, rfl⟩⟩

theorem overlapping_noninterference :
    overlapping.Alike elsewhere .recvfrom ∧
    (overlapping.dispatch .longWinded .permissive Syscall.recvfrom.number).calls ≠ [] ∧
    (overlapping.dispatch .longWinded .permissive Syscall.recvfrom.number).Agrees
      (elsewhere.dispatch .longWinded .permissive Syscall.recvfrom.number)
      overlapping elsewhere .recvfrom ∧
    (overlapping.dispatch .longWinded .permissive Syscall.recvfrom.number).Confined
      overlapping .recvfrom ∧
    (elsewhere.dispatch .longWinded .permissive Syscall.recvfrom.number).Confined
      elsewhere .recvfrom :=
  ⟨overlapping_alike, overlapping_calls _, dispatch_noninterference overlapping_alike _ _⟩

end Machine

end GuestGate
