import GuestGate.Proofs.Locality
import GuestGate.Proofs.Resolution

/-!
# Memories that are held

The embedder may hold memories while a guest traps. A dispatch notices no hold but one on its own
memory, and that one only if it excludes the access that the syscall needs; it is then refused with
nothing changed. A dispatch takes a hold of its own for as long as it needs the memory, and gives it
back however it ends.
-/

namespace GuestGate

namespace Hold

/-- The hold with one access less. -/
def lessen : Hold → Access → Hold
  | .readers (count + 1), .reading => .readers count
  | .writer, .writing => .free
  | h, _ => h

theorem lessen_extend {h : Hold} {access : Access} (admitted : h.admits access = true) :
    (h.extend access).lessen access = h := by
  cases h with
  | writer => cases admitted
  | readers count =>
    cases access with
    | reading => rfl
    | writing =>
      obtain rfl : count = 0 := by simpa [admits] using admitted
      rfl

/-- Nobody gets on with a writer, and a writer with nobody. -/
theorem admits_eq_false_iff {h : Hold} {access : Access} :
    h.admits access = false ↔ h = .writer ∨ access = .writing ∧ h ≠ .free := by
  cases h <;> cases access <;> simp [admits, free]

end Hold

namespace Store

def holds (s : Store) : Array Hold := s.cells.map Cell.hold

/-- The same memories held otherwise. -/
def mapHolds (s : Store) (f : Nat → Hold → Hold) : Store :=
  ⟨s.cells.mapIdx fun i c => { c with hold := f i c.hold }⟩

/-- Gives back one access to a memory. -/
def giveBack (s : Store) (a : MemoryAddress) (access : Access) : Store :=
  ⟨s.cells.modify a.index fun c => { c with hold := c.hold.lessen access }⟩

theorem ext_cells {s t : Store} (h : ∀ i : Nat, s.cells[i]? = t.cells[i]?) : s = t := by
  obtain ⟨cells⟩ := s
  obtain ⟨cells'⟩ := t
  rw [Store.mk.injEq]
  exact Array.ext_getElem? h

variable {s : Store} {f : Nat → Hold → Hold}

theorem getElem?_mapHolds (s : Store) (f : Nat → Hold → Hold) (i : Nat) :
    (s.mapHolds f).cells[i]? = s.cells[i]?.map fun c => { c with hold := f i c.hold } := by
  simp [mapHolds]

/-- Who holds a memory and what lies in it are told apart. -/
theorem replace_mapHolds (s : Store) (f : Nat → Hold → Hold) (a : MemoryAddress) (m : Memory) :
    (s.mapHolds f).replace a m = (s.replace a m).mapHolds f := by
  apply ext_cells
  intro i
  rw [getElem?_replace, getElem?_mapHolds, getElem?_mapHolds, getElem?_replace]
  split
  · cases s.cells[i]? <;> rfl
  · rfl

theorem mapHolds_eq_self (h : ∀ i c, s.cells[i]? = some c → f i c.hold = c.hold) :
    s.mapHolds f = s := by
  apply ext_cells
  intro i
  rw [getElem?_mapHolds]
  cases hc : s.cells[i]? with
  | none => rfl
  | some c => rw [Option.map_some, h i c hc]

theorem mapHolds_mapHolds (s : Store) (f g : Nat → Hold → Hold) :
    (s.mapHolds f).mapHolds g = s.mapHolds fun i h => g i (f i h) := by
  apply ext_cells
  intro i
  rw [getElem?_mapHolds, getElem?_mapHolds, getElem?_mapHolds]
  cases s.cells[i]? <;> rfl

/-- A change of the hold on one memory. -/
def atAddress (a : MemoryAddress) (g : Hold → Hold) (i : Nat) (h : Hold) : Hold :=
  if a.index = i then g h else h

theorem modify_eq_mapHolds (s : Store) (a : MemoryAddress) (g : Hold → Hold) :
    (⟨s.cells.modify a.index fun c => { c with hold := g c.hold }⟩ : Store) =
      s.mapHolds (atAddress a g) := by
  apply ext_cells
  intro i
  rw [getElem?_mapHolds, Array.getElem?_modify]
  unfold atAddress
  split
  · rfl
  · cases s.cells[i]? <;> rfl

theorem memory_mapHolds {a : MemoryAddress} {access : Access}
    (h : ∀ c ∈ s.cells[a.index]?, (f a.index c.hold).admits access = c.hold.admits access) :
    (s.mapHolds f).memory a access = s.memory a access := by
  rw [memory, memory, cell, cell, getElem?_mapHolds]
  cases hc : s.cells[a.index]? with
  | none => rfl
  | some c =>
    have hadmits := h c hc
    simp only [Option.map_some, hadmits]

end Store

/-- The same machine with its memories held otherwise. -/
def Machine.mapHolds (m : Machine) (f : Nat → Hold → Hold) : Machine :=
  { m with store := m.store.mapHolds f }

/-- The same outcome but for who holds the memories. -/
def Outcome.mapHolds (o : Outcome) (f : Nat → Hold → Hold) : Outcome :=
  { o with machine := o.machine.mapHolds f }

/-- A request depends on a machine by its own memory alone. -/
theorem Request.ofSyscall_congr {m n : Machine} {s : Syscall} (v : Vector Int32 s.arity)
    (h : ∀ access ∈ s.access?, m.guestMemory access = n.guestMemory access) :
    ofSyscall m s v = ofSyscall n s v := by
  cases s
  case execve =>
    simp only [ofSyscall, Checks.request, Checks.execve, Checks.plain, h .reading rfl]
  case connect | bind =>
    simp only [ofSyscall, Checks.request, Checks.connect, Checks.bind, Checks.staged, Checks.plain,
      h .reading rfl]
  case accept =>
    simp only [ofSyscall, Checks.request, Checks.accept, Checks.plain, h .writing rfl]
  case sendto =>
    simp only [ofSyscall, Checks.request, Checks.sendto, Checks.plain, h .reading rfl]
  case recvfrom | nanosleep =>
    simp only [ofSyscall, Checks.request, Checks.recvfrom, Checks.plain, h .writing rfl]
  all_goals rfl

/-- What an answer does to the memories does not depend on who holds them. -/
theorem Request.answered_mapHolds (r : Request) (store : Store) (f : Nat → Hold → Hold)
    (reply : HostReply) :
    r.answered (store.mapHolds f) reply =
      { r.answered store reply with store := (r.answered store reply).store.mapHolds f } := by
  unfold answered
  simp only [Store.replace_mapHolds]
  split
  · split <;> rfl
  · split
    · rfl
    · split
      · rfl
      · split
        · rfl
        · split <;> rfl

namespace Machine

/-- Takes the operands off for a request and performs it, or traps if there is none. -/
def serve (m : Machine) (host : Host) (s : Syscall) (log : List LogEvent) :
    Except Fault Request → Outcome
  | .error f => m.trap s.number f [] log
  | .ok r =>
    let log := log ++ r.call.announcement
    match m.stack.discard s.arity with
    | .error f => m.trap s.number f [] log
    | .ok stack => { m with stack }.perform host s.number r log

/-- Goes on with the operands of a syscall that is permitted, or traps. -/
def vet (m : Machine) (config : Config) (s : Syscall)
    (next : Vector Int32 s.arity → List LogEvent → Outcome) : Outcome :=
  let entry := LogEvent.invoked s m.stack.available
  match config.check s with
  | .error f => m.trap s.number f [] [entry, .refused s]
  | .ok () =>
    match m.stack.peekI32 s.arity with
    | .error f => m.trap s.number f [] [entry]
    | .ok v => next v (entry :: .operands s v.toList :: s.warnings)

variable {m : Machine} {host : Host} {config : Config} {s : Syscall}

theorem invoke_eq (m : Machine) (host : Host) (config : Config) (s : Syscall) :
    m.invoke host config s =
      m.vet config s fun v log => m.serve host s log (Request.ofSyscall m s v) := by
  unfold invoke vet
  cases config.check s with
  | error f => rfl
  | ok u =>
    cases m.stack.peekI32 s.arity with
    | error f => rfl
    | ok v => cases Request.ofSyscall m s v <;> rfl

theorem perform_mapHolds (m : Machine) (f : Nat → Hold → Hold) (host : Host) (number : UInt32)
    (r : Request) (log : List LogEvent) :
    (m.mapHolds f).perform host number r log = (m.perform host number r log).mapHolds f := by
  unfold perform
  split
  · rfl
  · rw [show (m.mapHolds f).store = m.store.mapHolds f from rfl, Request.answered_mapHolds]
    dsimp only
    split <;> rfl

theorem serve_mapHolds (m : Machine) (f : Nat → Hold → Hold) (host : Host) (s : Syscall)
    (log : List LogEvent) (request : Except Fault Request) :
    (m.mapHolds f).serve host s log request = (m.serve host s log request).mapHolds f := by
  cases request with
  | error fault => rfl
  | ok r =>
    unfold serve
    rw [show (m.mapHolds f).stack = m.stack from rfl]
    dsimp only
    cases m.stack.discard s.arity with
    | error fault => rfl
    | ok stack => exact perform_mapHolds { m with stack } f host s.number r _

theorem vet_mapHolds {next next' : Vector Int32 s.arity → List LogEvent → Outcome}
    (m : Machine) (f : Nat → Hold → Hold) (config : Config)
    (h : ∀ v log, next' v log = (next v log).mapHolds f) :
    (m.mapHolds f).vet config s next' = (m.vet config s next).mapHolds f := by
  unfold vet
  rw [show (m.mapHolds f).stack = m.stack from rfl]
  cases config.check s with
  | error fault => rfl
  | ok u =>
    cases m.stack.peekI32 s.arity with
    | error fault => rfl
    | ok v => exact h v _

/-- A hold that admits an access as before makes no difference to it. -/
def Unmoved (m : Machine) (f : Nat → Hold → Hold) (access : Access) : Prop :=
  ∀ a ∈ m.ownAddress?, ∀ c ∈ m.store.cells[a.index]?,
    (f a.index c.hold).admits access = c.hold.admits access

theorem guestMemory_mapHolds {f : Nat → Hold → Hold} {access : Access}
    (h : m.Unmoved f access) :
    (m.mapHolds f).guestMemory access = m.guestMemory access := by
  rw [guestMemory, guestMemory, show (m.mapHolds f).stack = m.stack from rfl]
  cases hf : m.stack.currentFrame with
  | error fault => rfl
  | ok frame =>
    cases ha : frame.guestModule.memoryAt 0 with
    | error fault => simp only [bind, Except.bind, ha]
    | ok a =>
      have hm := Store.memory_mapHolds (h a (ownAddress?_eq_some_iff.mpr ⟨frame, hf, ha⟩))
      simp only [bind, Except.bind, ha]
      rw [show (m.mapHolds f).store = m.store.mapHolds f from rfl, hm]

/-- A dispatch on memories that are held otherwise is the same dispatch, if its own memory admits
what it needs as before. -/
theorem dispatch_mapHolds {f : Nat → Hold → Hold} {number : UInt32} (host : Host) (config : Config)
    (h : ∀ s : Syscall, s.number = number → ∀ access ∈ s.access?, m.Unmoved f access) :
    (m.mapHolds f).dispatch host config number = (m.dispatch host config number).mapHolds f := by
  rw [dispatch, dispatch]
  cases hs : Syscall.ofNumber? number with
  | none => rfl
  | some s =>
    have hrequest (v : Vector Int32 s.arity) :
        Request.ofSyscall (m.mapHolds f) s v = Request.ofSyscall m s v :=
      Request.ofSyscall_congr v fun access ha =>
        guestMemory_mapHolds (h s (Syscall.ofNumber?_eq_some_iff.mp hs) access ha)
    dsimp only
    rw [invoke_eq, invoke_eq]
    refine vet_mapHolds m f config fun v log => ?_
    rw [hrequest, serve_mapHolds]

end Machine

/-- Whether a syscall needs its hold until its answer is there: data goes between the host and the
memory itself, and a peer's address goes there in the end. All else is copied out beforehand. -/
def Syscall.holdsThroughout : Syscall → Bool
  | .accept | .sendto | .recvfrom | .nanosleep => true
  | _ => false

namespace Machine

variable {m : Machine} {s : Syscall}

def take (m : Machine) (a : MemoryAddress) (access : Access) : Machine :=
  { m with store := m.store.hold a access }

def giveBack (m : Machine) (a : MemoryAddress) (access : Access) : Machine :=
  { m with store := m.store.giveBack a access }

end Machine

/-- A machine, and the hold that a syscall has taken on its memory if it has taken one. -/
structure Guarded where
  machine : Machine
  hold : Option (MemoryAddress × Access)

namespace Guarded

/-- The machine with the hold given back. -/
def released (g : Guarded) : Machine :=
  match g.hold with
  | none => g.machine
  | some (a, access) => g.machine.giveBack a access

end Guarded

/-- Checks that take a hold, which is there whatever the later checks say. -/
abbrev Guarding := ExceptT Fault (StateM Guarded)

namespace Guarding

variable {α β : Type}

/-- A check that leaves the hold alone. -/
def check (e : Except Fault α) : Guarding α := ExceptT.mk (pure e)

/-- Takes a hold on the guest's memory, and gives what is in the memory then. -/
def guestMemory (access : Access) : Guarding (MemoryAddress × Memory) := do
  let g : Guarded ← get
  let (a, _) ← check (g.machine.guestMemory access)
  let held := g.machine.take a access
  set (Guarded.mk held (some (a, access)))
  let cell ← check (held.store.cell a)
  return (a, cell.memory)

end Guarding

/-- The steps of a request, made under a hold from the look at the memory on. -/
def Checks.guarding : Checks Guarding where
  guestMemory := Guarding.guestMemory
  guestLength n := .check (GuestGate.guestLength n)
  decode m filename argv envp := .check (ExecArgs.decode m filename argv envp)
  stagedAddress m pointer length := .check (GuestGate.stagedAddress m pointer length)
  peerSlot m offset lengthAt := .check (PeerSlot.ofOperands m offset lengthAt)
  slice m offset length := .check (m.slice offset length)
  check m offset length := .check (m.check offset length)

namespace Machine

/-- Serves a request under the hold that its checks were made under, or gives that back first. -/
def serveHolding (m : Machine) (host : Host) (s : Syscall) (v : Vector Int32 s.arity)
    (log : List LogEvent) : Outcome :=
  let operand (i : Nat) : Guarding Int32 := .check (.ok (v[i]?.getD 0))
  let (request, g) := (Checks.guarding.request operand s).run.run ⟨m, none⟩
  if s.holdsThroughout then
    let o := g.machine.serve host s log request
    { o with machine := ({ g with machine := o.machine } : Guarded).released }
  else g.released.serve host s log request

/-- A dispatch that takes its hold on the memory and gives it back. -/
def dispatchHolding (m : Machine) (host : Host) (config : Config) (number : UInt32) : Outcome :=
  match Syscall.ofNumber? number with
  | some s => m.vet config s fun v log => m.serveHolding host s v log
  | none => m.trap number (.unknownSyscall number) [] [.unknownNumber number]

theorem take_eq_mapHolds (m : Machine) (a : MemoryAddress) (access : Access) :
    m.take a access = m.mapHolds (Store.atAddress a fun h => h.extend access) := by
  rw [take, Store.hold, Store.modify_eq_mapHolds _ a fun h => h.extend access]
  rfl

theorem giveBack_eq_mapHolds (m : Machine) (a : MemoryAddress) (access : Access) :
    m.giveBack a access = m.mapHolds (Store.atAddress a fun h => h.lessen access) := by
  rw [giveBack, Store.giveBack, Store.modify_eq_mapHolds _ a fun h => h.lessen access]
  rfl

theorem mapHolds_mapHolds (m : Machine) (f g : Nat → Hold → Hold) :
    (m.mapHolds f).mapHolds g = m.mapHolds fun i h => g i (f i h) := by
  rw [mapHolds, mapHolds, mapHolds, Store.mapHolds_mapHolds]

variable {m : Machine} {a : MemoryAddress} {access : Access} {memory : Memory}

/-- A hold that was admitted is gone without a trace when it is given back. -/
theorem mapHolds_taken_and_given (h : m.guestMemory access = .ok (a, memory)) :
    m.mapHolds (fun i held => Store.atAddress a (fun h => h.lessen access) i
      (Store.atAddress a (fun h => h.extend access) i held)) = m := by
  obtain ⟨-, hm⟩ := guestMemory_eq_ok_iff.mp h
  obtain ⟨c, hc, hadmits, -⟩ := Store.memory_eq_ok_iff.mp hm
  rw [mapHolds, Store.mapHolds_eq_self]
  intro i d hd
  unfold Store.atAddress
  split
  next hi =>
    obtain rfl : c = d := by
      rw [hi, hd] at hc
      exact (Option.some.inj hc).symm
    exact Hold.lessen_extend hadmits
  · rfl

/-- The memory that is held is the one that was there to be held. -/
theorem cell_take (h : m.guestMemory access = .ok (a, memory)) :
    ∃ c, (m.take a access).store.cell a = .ok c ∧ c.memory = memory := by
  obtain ⟨-, hm⟩ := guestMemory_eq_ok_iff.mp h
  obtain ⟨c, hc, -, rfl⟩ := Store.memory_eq_ok_iff.mp hm
  rw [take_eq_mapHolds, Store.cell, mapHolds, Store.getElem?_mapHolds, hc]
  exact ⟨_, rfl, rfl⟩

/-- A machine under the checks of a request has the hold that it could have, or none yet. -/
inductive Guards (m : Machine) : Guarded → Prop where
  | free : m.Guards ⟨m, none⟩
  | taken {a : MemoryAddress} {access : Access} {memory : Memory} :
    m.guestMemory access = .ok (a, memory) → m.Guards ⟨m.take a access, some (a, access)⟩

end Machine

namespace Guarding

variable {α β : Type} {m : Machine} {x : Guarding α} {e : Except Fault α} {k : α → Guarding β}
  {h : α → Except Fault β}

/-- Checks that give a result under any hold, and leave it. -/
def Leaves (x : Guarding α) (e : Except Fault α) : Prop := ∀ g, x.run.run g = (e, g)

/-- Checks that give a result when they begin on a machine without a hold. -/
def Begins (m : Machine) (x : Guarding α) (e : Except Fault α) : Prop :=
  ∃ g, x.run.run ⟨m, none⟩ = (e, g) ∧ m.Guards g

theorem run_bind (x : Guarding α) (k : α → Guarding β) (g : Guarded) :
    (x >>= k).run.run g =
      match x.run.run g with
      | (.ok a, g) => (k a).run.run g
      | (.error f, g) => (.error f, g) := by
  change (ExceptT.bindCont k (x.run.run g).1) (x.run.run g).2 = _
  obtain ⟨e, g⟩ := x.run.run g
  cases e <;> rfl

theorem Leaves.check (e : Except Fault α) : Leaves (check e) e := fun _ => rfl

theorem Leaves.pure (a : α) : Leaves (pure a) (.ok a) := fun _ => rfl

theorem Leaves.bind (hx : Leaves x e) (hk : ∀ a, Leaves (k a) (h a)) :
    Leaves (x >>= k) (e >>= h) := by
  intro g
  rw [run_bind, hx g]
  cases e with
  | error f => rfl
  | ok a => exact hk a g

theorem Leaves.begins (hx : Leaves x e) : Begins m x e := ⟨_, hx _, .free⟩

theorem Begins.bind (hx : Leaves x e) (hk : ∀ a, Begins m (k a) (h a)) :
    Begins m (x >>= k) (e >>= h) := by
  rw [Begins, run_bind, hx]
  cases e with
  | error f => exact ⟨_, rfl, .free⟩
  | ok a => exact hk a

/-- From the look at the memory on there is a hold. -/
theorem Begins.guestMemory {access : Access} {k : MemoryAddress × Memory → Guarding β}
    {h : MemoryAddress × Memory → Except Fault β} (hk : ∀ found, Leaves (k found) (h found)) :
    Begins m (guestMemory access >>= k) (m.guestMemory access >>= h) := by
  cases hm : m.guestMemory access with
  | error f =>
    have hrun : (Guarding.guestMemory access).run.run ⟨m, none⟩ = (.error f, ⟨m, none⟩) := by
      rw [Guarding.guestMemory, run_bind]
      change ((check (m.guestMemory access) >>= _).run.run ⟨m, none⟩) = _
      rw [run_bind, Leaves.check, hm]
    rw [Begins, run_bind, hrun]
    exact ⟨_, rfl, .free⟩
  | ok found =>
    obtain ⟨a, memory⟩ := found
    obtain ⟨c, hc, hmemory⟩ := Machine.cell_take hm
    have hrun : (Guarding.guestMemory access).run.run ⟨m, none⟩ =
        (.ok (a, memory), ⟨m.take a access, some (a, access)⟩) := by
      rw [Guarding.guestMemory, run_bind]
      change ((check (m.guestMemory access) >>= _).run.run ⟨m, none⟩) = _
      rw [run_bind, Leaves.check, hm]
      change ((check ((m.take a access).store.cell a) >>= _).run.run _) = _
      rw [run_bind, Leaves.check, hc, ← hmemory]
      rfl
    rw [Begins, run_bind, hrun]
    exact ⟨_, hk (a, memory) _, .taken hm⟩

theorem execve_begins (filename argv envp : Int32) :
    Begins m (Checks.guarding.execve filename argv envp) (Request.execve m filename argv envp) :=
  .guestMemory fun _ => (Leaves.check _).bind fun _ => .pure _

theorem staged_begins (call : SocketAddress → HostCall) (pointer length : Int32) :
    Begins m (Checks.guarding.staged call pointer length) (Request.staged m call pointer length) :=
  .guestMemory fun _ => (Leaves.check _).bind fun _ => .pure _

theorem accept_begins (fd pointer lengthAt : Int32) :
    Begins m (Checks.guarding.accept fd pointer lengthAt) (Request.accept m fd pointer lengthAt) :=
  .guestMemory fun _ => (Leaves.check _).bind fun _ => .pure _

theorem sendto_begins (fd pointer length flags destination addressLength : Int32) :
    Begins m (Checks.guarding.sendto fd pointer length flags destination addressLength)
      (Request.sendto m fd pointer length flags destination addressLength) := by
  refine .bind (.check _) fun _ => .guestMemory fun _ => (Leaves.check _).bind fun _ => ?_
  split
  · exact .pure _
  · exact (Leaves.check _).bind fun _ => .pure _

theorem recvfrom_begins (fd pointer length flags source lengthAt : Int32) :
    Begins m (Checks.guarding.recvfrom fd pointer length flags source lengthAt)
      (Request.recvfrom m fd pointer length flags source lengthAt) :=
  .bind (.check _) fun _ => .guestMemory fun _ => (Leaves.check _).bind fun _ =>
    (Leaves.check _).bind fun _ => .pure _

theorem request_begins {s : Syscall} (v : Vector Int32 s.arity) :
    Begins m (Checks.guarding.request (fun i => .check (.ok (v[i]?.getD 0))) s)
      (Request.ofSyscall m s v) := by
  cases s
  case execve => exact execve_begins ..
  case connect | bind => exact staged_begins ..
  case accept => exact accept_begins ..
  case sendto => exact sendto_begins ..
  case recvfrom | nanosleep => exact recvfrom_begins ..
  all_goals exact ⟨_, rfl, .free⟩

end Guarding

namespace Machine

/-- Taking a hold and giving it back changes nothing, whichever way the request goes. It makes no
difference when it is given back either, since an answer minds no holds. -/
theorem serveHolding_eq (m : Machine) (host : Host) (s : Syscall) (v : Vector Int32 s.arity)
    (log : List LogEvent) :
    m.serveHolding host s v log = m.serve host s log (Request.ofSyscall m s v) := by
  obtain ⟨g, hrun, hg⟩ := Guarding.request_begins (m := m) v
  unfold serveHolding
  dsimp only
  rw [hrun]
  cases hg with
  | free =>
    dsimp only [Guarded.released]
    split <;> rfl
  | @taken a access memory hm =>
    have hsame := mapHolds_taken_and_given hm
    dsimp only [Guarded.released]
    rw [take_eq_mapHolds]
    split
    · rw [serve_mapHolds]
      change Outcome.mk (((m.serve host s log _).machine.mapHolds _).giveBack a access) _ _ _ = _
      rw [giveBack_eq_mapHolds, mapHolds_mapHolds]
      change (m.serve host s log _).mapHolds _ = _
      rw [← serve_mapHolds, hsame]
    · rw [giveBack_eq_mapHolds, mapHolds_mapHolds, hsame]

variable {m : Machine} {s : Syscall}

theorem dispatchHolding_eq (m : Machine) (host : Host) (config : Config) (number : UInt32) :
    m.dispatchHolding host config number = m.dispatch host config number := by
  unfold dispatchHolding dispatch
  cases Syscall.ofNumber? number with
  | none => rfl
  | some s => simp only [invoke_eq, serveHolding_eq]

theorem holds_dispatch (m : Machine) (host : Host) (config : Config) (number : UInt32) :
    (m.dispatch host config number).machine.store.holds = m.store.holds := by
  cases hs : Syscall.ofNumber? number with
  | none =>
    rw [dispatch, hs]
    rfl
  | some s =>
    obtain rfl := Syscall.ofNumber?_eq_some_iff.mp hs
    apply Array.ext_getElem?
    intro i
    rw [Store.holds, Store.holds, Array.getElem?_map, Array.getElem?_map]
    have hkept := (m.dispatch_confined host config s).cells i
    generalize (m.dispatch host config s.number).machine.store.cells[i]? = after at hkept ⊢
    generalize m.store.cells[i]? = before at hkept ⊢
    cases hkept with
    | none => rfl
    | some h => exact congrArg some h.hold

/-- Ways to hold memories otherwise that a trap with some number does not notice: only memories
that are not its own are concerned, or it reads and only readers are, or it takes no pointer. -/
inductive Unnoticed (m : Machine) (number : UInt32) (f : Nat → Hold → Hold) : Prop where
  | elsewhere : (∀ a ∈ m.ownAddress?, ∀ h, f a.index h = h) → m.Unnoticed number f
  | readers {s : Syscall} : s.number = number → s.access? = some .reading →
    (∀ a ∈ m.ownAddress?, ∀ c ∈ m.store.cells[a.index]?,
      ∃ k n, c.hold = .readers k ∧ f a.index c.hold = .readers n) → m.Unnoticed number f
  | pointerless : (∀ s : Syscall, s.number = number → s.usesMemory = false) →
    m.Unnoticed number f

theorem Unnoticed.unmoved {number : UInt32} {f : Nat → Hold → Hold} (h : m.Unnoticed number f)
    (hs : s.number = number) {access : Access} (ha : access ∈ s.access?) : m.Unmoved f access := by
  cases h with
  | elsewhere hown =>
    intro a hma c hc
    rw [hown a hma]
  | @readers t ht hreads hown =>
    obtain rfl : s = t := by
      have hsome := Syscall.ofNumber?_eq_some_iff.mpr hs
      rw [← ht, Syscall.ofNumber?_number] at hsome
      exact (Option.some.inj hsome).symm
    rw [Option.mem_def, hreads] at ha
    cases ha
    intro a hma c hc
    obtain ⟨k, n, hk, hn⟩ := hown a hma c hc
    rw [hn, hk]
    rfl
  | pointerless hnone =>
    have huses := hnone s hs
    rw [← s.isSome_access?, Option.mem_def.mp ha] at huses
    cases huses

/-- The machine's own memory is held in a way that excludes an access: by a writer, or at all while
the access is to write. -/
def Clashes (m : Machine) (access : Access) : Prop :=
  ∃ c, m.ownCell? = some c ∧ (c.hold = .writer ∨ access = .writing ∧ c.hold ≠ .free)

theorem Clashes.guestMemory {access : Access} (h : m.Clashes access) :
    m.guestMemory access = .error (Store.inUse access) := by
  obtain ⟨c, hc, hold⟩ := h
  obtain ⟨a, -, -, hm⟩ := guestMemory_of_ownCell hc access
  rw [hm, if_neg]
  rw [Hold.admits_eq_false_iff.mpr hold]
  exact Bool.false_ne_true

/-- A dispatch that cannot have its memory is refused, for that or for the length before. -/
theorem Clashes.refusedFor {config : Config} {v : Vector Int32 s.arity} {access : Access}
    (h : m.Clashes access) (permitted : config.permits s = true)
    (operands : m.stack.peekI32 s.arity = .ok v) (accesses : s.access? = some access)
    (host : Host) :
    (m.dispatch host config s.number).RefusedFor m s.number
      (s.unresolvedFault v (Store.inUse access)) := by
  have uses : s.usesMemory = true := by rw [← s.isSome_access?, accesses]; rfl
  have hmemory (wanted : Access) (hw : wanted ∈ s.access?) :
      m.guestMemory wanted = .error (Store.inUse access) := by
    rw [Option.mem_def, accesses] at hw
    cases hw
    exact h.guestMemory
  have hrefused : m.Refuses config s (s.unresolvedFault v (Store.inUse access))
      (.operands s v.toList :: s.warnings) :=
    .request permitted operands (Request.ofSyscall_without_memory uses hmemory v)
  rw [hrefused.dispatch_eq]
  exact ⟨rfl, rfl, rfl⟩

theorem Clashes.dispatch_refused {config : Config} {v : Vector Int32 s.arity} {access : Access}
    (h : m.Clashes access) (permitted : config.permits s = true)
    (operands : m.stack.peekI32 s.arity = .ok v) (accesses : s.access? = some access)
    (long : ∀ n ∈ s.dataLength? v, 0 ≤ n) (host : Host) :
    (m.dispatch host config s.number).RefusedFor m s.number (Store.inUse access) := by
  have hrefused := h.refusedFor permitted operands accesses host
  rwa [Syscall.unresolvedFault_of_nonnegative long] at hrefused

/-- A dispatch takes its hold and gives it back, notices no hold that lets it have its memory, and
is refused by one that does not, as if it had never been tried. -/
theorem dispatch_respects_holds (m : Machine) (host : Host) (config : Config) :
    (∀ number, m.dispatchHolding host config number = m.dispatch host config number ∧
      (m.dispatch host config number).machine.store.holds = m.store.holds) ∧
    (∀ number f, m.Unnoticed number f →
      (m.mapHolds f).dispatch host config number = (m.dispatch host config number).mapHolds f) ∧
    (∀ (s : Syscall) (v : Vector Int32 s.arity) access, config.permits s = true →
      m.stack.peekI32 s.arity = .ok v → s.access? = some access →
      (∀ n ∈ s.dataLength? v, 0 ≤ n) → m.Clashes access →
      (m.dispatch host config s.number).RefusedFor m s.number (Store.inUse access) ∧
      ∀ f host', ((m.dispatch host config s.number).machine.mapHolds f).dispatch host' config
          s.number = (m.mapHolds f).dispatch host' config s.number) := by
  refine ⟨fun number => ⟨m.dispatchHolding_eq host config number,
    m.holds_dispatch host config number⟩, fun number f h => ?_, ?_⟩
  · exact dispatch_mapHolds host config fun s hs access ha => h.unmoved hs ha
  · intro s v access permitted operands accesses long clash
    have hrefused := clash.dispatch_refused permitted operands accesses long host
    refine ⟨hrefused, fun f host' => ?_⟩
    rw [hrefused.machine]

/-- The receive of `overlapping` while two others read the memory. -/
def contested : Machine := overlapping.mapHolds fun _ _ => .readers 2

theorem contested_released : contested.mapHolds (fun _ _ => .free) = overlapping := rfl

theorem contested_clashes : contested.Clashes .writing :=
  ⟨{ memory := .sixteenAtEight, hold := .readers 2 }, rfl, .inr ⟨rfl, by decide⟩⟩

/-- A receive waits for the readers of its memory and then goes through, and one that has its memory
to itself does not notice who holds the one before it. -/
theorem contested_waits :
    Config.permissive.permits .recvfrom = true ∧
    contested.stack.peekI32 Syscall.recvfrom.arity = .ok #v[3, 6, 4, 0, 4, 8] ∧
    contested.Clashes .writing ∧
    (contested.dispatch .longWinded .permissive Syscall.recvfrom.number).RefusedFor contested
      Syscall.recvfrom.number (.memory .held) ∧
    (((contested.dispatch .longWinded .permissive Syscall.recvfrom.number).machine.mapHolds
      fun _ _ => .free).dispatch .longWinded .permissive Syscall.recvfrom.number).calls ≠ [] ∧
    elsewhere.Unnoticed Syscall.recvfrom.number (Store.atAddress ⟨0⟩ fun _ => .free) ∧
    (elsewhere.mapHolds (Store.atAddress ⟨0⟩ fun _ => .free)).dispatch .longWinded .permissive
      Syscall.recvfrom.number =
    (elsewhere.dispatch .longWinded .permissive Syscall.recvfrom.number).mapHolds
      (Store.atAddress ⟨0⟩ fun _ => .free) := by
  have permitted : Config.permissive.permits .recvfrom = true := by decide
  have long : ∀ n ∈ Syscall.dataLength? .recvfrom #v[3, 6, 4, 0, 4, 8], 0 ≤ n := by
    rintro _ ⟨⟩
    decide
  have unnoticed : elsewhere.Unnoticed Syscall.recvfrom.number
      (Store.atAddress ⟨0⟩ fun _ => .free) := by
    refine .elsewhere ?_
    rintro _ ⟨⟩ h
    rfl
  obtain ⟨-, -, hclash⟩ := dispatch_respects_holds contested .longWinded .permissive
  obtain ⟨hrefused, hretry⟩ := hclash .recvfrom #v[3, 6, 4, 0, 4, 8] .writing permitted rfl rfl long
    contested_clashes
  refine ⟨permitted, rfl, contested_clashes, hrefused, ?_, unnoticed,
    (dispatch_respects_holds elsewhere .longWinded .permissive).2.1 _ _ unnoticed⟩
  rw [hretry, contested_released]
  exact overlapping_calls .longWinded

end Machine

end GuestGate
