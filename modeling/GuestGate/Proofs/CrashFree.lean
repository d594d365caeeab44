import GuestGate.Proofs.Crashes
import GuestGate.Proofs.Holds
import GuestGate.Session

/-!
# Nothing crashes

Requests, answers, dispatches and whole sessions by operations that can crash. The operands come as
a list and are looked up in it, a buffer for an address has the room it has, and what is copied
back of it is cut first. A host may give any value, store any data and report any length, but it
stores no more of an address than a buffer has room for. Then no run of a session reaches a crash.
-/

namespace GuestGate

/-- A host that stores no more of an address than a buffer has room for. -/
def Host.StaysInBuffer (host : Host) : Prop :=
  ∀ call, (host.answer call).address.length ≤ SocketAddress.capacity

namespace Risky

/-! ### Addresses -/

/-- Stores bytes at the start of a buffer. -/
def stored (a : SocketAddress) (bytes : List UInt8) : Risky SocketAddress := do
  let target ← between a.storage.toList 0 bytes.length
  copy target bytes
  return a.fill bytes

def addressOfGuest (bytes : List UInt8) : Risky SocketAddress :=
  if SocketAddress.capacity < bytes.length then throw (.invalidLength bytes.length)
  else stored (.zeros (UInt32.ofNat bytes.length)) bytes

def addressBytes (a : SocketAddress) : Risky (List UInt8) :=
  between a.storage.toList 0 (min a.length.toNat SocketAddress.capacity)

def shown (a : SocketAddress) : Risky ShownAddress := do
  return ⟨a.length, ← addressBytes a⟩

def stagedAddress (m : Memory) (pointer length : Int32) : Risky SocketAddress := do
  let length ← guestLength length
  let bytes ← slice m pointer.toUInt32 length
  addressOfGuest bytes

def peerSlot (m : Memory) (offset lengthAt : Int32) : Risky (Option PeerSlot) :=
  if lengthAt = 0 then pure none
  else do
    let capacity ← readWord m lengthAt.toUInt32
    let _ ← slice m offset.toUInt32 capacity.toNat
    return some ⟨offset.toUInt32, lengthAt.toUInt32, capacity⟩

/-- The buffer of a slot after the host has stored an address in it. -/
def filled (slot : PeerSlot) (reply : HostReply) : Risky SocketAddress := do
  let a ← stored slot.buffer reply.address
  return a.withLength reply.addressLength

def writeBack (slot : PeerSlot) (m : Memory) (a : SocketAddress) : Risky Memory := do
  let bytes ← addressBytes a
  let cut ← between bytes 0 (min bytes.length slot.capacity.toNat)
  let m ← write m slot.offset cut
  writeWord m slot.lengthAt a.length

theorem length_storage (a : SocketAddress) : a.storage.toList.length = SocketAddress.capacity :=
  Array.length_toList.trans a.size_storage

theorem stored_gives (a : SocketAddress) {bytes : List UInt8}
    (h : bytes.length ≤ SocketAddress.capacity) : Gives (stored a bytes) (.ok (a.fill bytes)) := by
  have hl : bytes.length ≤ a.storage.toList.length := length_storage a ▸ h
  refine .step (first_gives hl) ?_
  exact .step (copy_gives (List.length_take_of_le hl)) (.pure _)

theorem addressOfGuest_gives (bytes : List UInt8) :
    Gives (addressOfGuest bytes) (SocketAddress.ofGuest bytes) := by
  unfold addressOfGuest SocketAddress.ofGuest
  by_cases h : SocketAddress.capacity < bytes.length
  · rw [if_pos h, if_pos h]
    exact .refuse _
  · rw [if_neg h, if_neg h]
    exact stored_gives _ (Nat.not_lt.mp h)

theorem addressBytes_gives (a : SocketAddress) : Gives (addressBytes a) (.ok a.bytes) := by
  -- The length may be any; no more is taken than the buffer has.
  have hbytes : a.storage.toList.take (min a.length.toNat SocketAddress.capacity) = a.bytes := by
    rw [SocketAddress.bytes, ← length_storage a, ← List.take_eq_take_min]
  rw [← hbytes]
  exact first_gives (length_storage a ▸ Nat.min_le_right ..)

theorem shown_gives (a : SocketAddress) : Gives (shown a) (.ok a.shown) :=
  .step (addressBytes_gives a) (.pure _)

theorem stagedAddress_gives (m : Memory) (pointer length : Int32) :
    Gives (stagedAddress m pointer length) (GuestGate.stagedAddress m pointer length) :=
  (Gives.lift _).bind fun _ _ => (slice_gives ..).bind fun _ _ => addressOfGuest_gives _

theorem peerSlot_gives (m : Memory) (offset lengthAt : Int32) :
    Gives (peerSlot m offset lengthAt) (PeerSlot.ofOperands m offset lengthAt) := by
  unfold peerSlot PeerSlot.ofOperands
  by_cases h : lengthAt = 0
  · rw [if_pos h, if_pos h]
    exact .pure none
  · rw [if_neg h, if_neg h]
    exact (readWord_gives ..).bind fun _ _ => check_bind (.pure _)

theorem filled_gives (slot : PeerSlot) {reply : HostReply}
    (h : reply.address.length ≤ SocketAddress.capacity) :
    Gives (filled slot reply) (.ok (slot.filled reply)) :=
  .step (stored_gives _ h) (.pure _)

theorem writeBack_gives (slot : PeerSlot) (m : Memory) (a : SocketAddress) :
    Gives (writeBack slot m a) (slot.writeBack m a) := by
  have hcut : a.bytes.take (min a.bytes.length slot.capacity.toNat) =
      a.bytes.take slot.capacity.toNat := by
    rw [Nat.min_comm, ← List.take_eq_take_min]
  refine .step (addressBytes_gives a) (.step (first_gives (Nat.min_le_left ..)) ?_)
  rw [hcut]
  exact (write_gives ..).bind fun _ _ => writeWord_gives ..

/-! ### Requests -/

def decode (m : Memory) (filename argv envp : UInt32) : Risky ExecArgs := do
  let filename ← ExecArgs.hostString (← string m filename)
  let argv ← ((← strings m argv).mapM ExecArgs.hostString : Except Fault _)
  let envp ← ((← strings m envp).mapM ExecArgs.hostString : Except Fault _)
  return ⟨filename, argv, envp⟩

/-- The steps of a request by operations that can crash. -/
def checks (m : Machine) : Checks Risky where
  guestMemory access := m.guestMemory access
  guestLength n := GuestGate.guestLength n
  decode := decode
  stagedAddress := stagedAddress
  peerSlot := peerSlot
  slice := slice
  check m offset length := do
    let _ ← slice m offset length
    return

/-- The request of a syscall, whose operands are looked up one by one. -/
def ofSyscall (m : Machine) (args : List Int32) (s : Syscall) : Risky Request :=
  (checks m).request (item args) s

theorem decode_gives (m : Memory) (filename argv envp : UInt32) :
    Gives (decode m filename argv envp) (ExecArgs.decode m filename argv envp) :=
  (string_gives ..).bind fun _ _ => (Gives.lift _).bind fun _ _ =>
    (strings_gives ..).bind fun _ _ => (Gives.lift _).bind fun _ _ =>
    (strings_gives ..).bind fun _ _ => (Gives.lift _).bind fun _ _ => .pure _

theorem check_gives (m : Machine) (n : Memory) (offset : UInt32) (length : Nat) :
    Gives ((checks m).check n offset length) (n.check offset length) := by
  rw [← bind_pure (n.check offset length)]
  exact check_bind (.pure ())

theorem execve_gives (m : Machine) (filename argv envp : Int32) :
    Gives ((checks m).execve filename argv envp) (Request.execve m filename argv envp) :=
  (Gives.lift _).bind fun _ _ => (decode_gives ..).bind fun _ _ => .pure _

theorem staged_gives (m : Machine) (call : SocketAddress → HostCall) (pointer length : Int32) :
    Gives ((checks m).staged call pointer length) (Request.staged m call pointer length) :=
  (Gives.lift _).bind fun _ _ => (stagedAddress_gives ..).bind fun _ _ => .pure _

theorem accept_gives (m : Machine) (fd pointer lengthAt : Int32) :
    Gives ((checks m).accept fd pointer lengthAt) (Request.accept m fd pointer lengthAt) :=
  (Gives.lift _).bind fun _ _ => (peerSlot_gives ..).bind fun _ _ => .pure _

theorem sendto_gives (m : Machine) (fd pointer length flags destination addressLength : Int32) :
    Gives ((checks m).sendto fd pointer length flags destination addressLength)
      (Request.sendto m fd pointer length flags destination addressLength) := by
  refine (Gives.lift _).bind fun _ _ => (Gives.lift _).bind fun _ _ =>
    (slice_gives ..).bind fun _ _ => ?_
  split
  · exact .pure _
  · exact (stagedAddress_gives ..).bind fun _ _ => .pure _

theorem recvfrom_gives (m : Machine) (fd pointer length flags source lengthAt : Int32) :
    Gives ((checks m).recvfrom fd pointer length flags source lengthAt)
      (Request.recvfrom m fd pointer length flags source lengthAt) :=
  (Gives.lift _).bind fun _ _ => (Gives.lift _).bind fun _ _ =>
    (check_gives ..).bind fun _ _ => (peerSlot_gives ..).bind fun _ _ => .pure _

section

variable {α : Type} {d : Except Fault α} {a b c : Int32}

theorem one_operand {k : Int32 → Risky α} (hk : Gives (k a) d) : Gives (item [a] 0 >>= k) d :=
  .step (item_gives rfl) hk

theorem two_operands {k : Int32 → Int32 → Risky α} (hk : Gives (k a b) d) :
    Gives (item [a, b] 0 >>= fun x => item [a, b] 1 >>= fun y => k x y) d :=
  .step (item_gives rfl) (.step (item_gives rfl) hk)

theorem three_operands {k : Int32 → Int32 → Int32 → Risky α} (hk : Gives (k a b c) d) :
    Gives (item [a, b, c] 0 >>= fun x => item [a, b, c] 1 >>= fun y => item [a, b, c] 2 >>= fun z =>
      k x y z) d :=
  .step (item_gives rfl) (.step (item_gives rfl) (.step (item_gives rfl) hk))

theorem six_operands {p q r : Int32}
    {k : Int32 → Int32 → Int32 → Int32 → Int32 → Int32 → Risky α}
    (hk : Gives (k a b c p q r) d) :
    Gives (item [a, b, c, p, q, r] 0 >>= fun x => item [a, b, c, p, q, r] 1 >>= fun y =>
      item [a, b, c, p, q, r] 2 >>= fun z => item [a, b, c, p, q, r] 3 >>= fun u =>
      item [a, b, c, p, q, r] 4 >>= fun v => item [a, b, c, p, q, r] 5 >>= fun w =>
      k x y z u v w) d :=
  .step (item_gives rfl) <| .step (item_gives rfl) <| .step (item_gives rfl) <|
    .step (item_gives rfl) <| .step (item_gives rfl) <| .step (item_gives rfl) hk

end

/-- Every operand that a handler looks up is one that the table of arities has it take. -/
theorem ofSyscall_gives (m : Machine) {s : Syscall} (v : Vector Int32 s.arity) :
    Gives (ofSyscall m v.toList s) (Request.ofSyscall m s v) := by
  rw [Vector.toList_eq_map_finRange]
  cases s with
  | pause | getpid | fork | vfork => exact .pure _
  | exit => exact one_operand (.pure _)
  | kill | shutdown | listen | dup2 => exact two_operands (.pure _)
  | socket => exact three_operands (.pure _)
  | execve => exact three_operands (execve_gives ..)
  | connect | bind => exact three_operands (staged_gives ..)
  | accept => exact three_operands (accept_gives ..)
  | sendto => exact six_operands (sendto_gives ..)
  | recvfrom | nanosleep => exact six_operands (recvfrom_gives ..)

/-! ### Answers -/

def announcement : HostCall → Risky (List LogEvent)
  | .connect fd address => do return [.connecting fd (← shown address)]
  | .bind fd address => do return [.binding fd (← shown address)]
  | .sendto fd data flags (some destination) => do
    return [.sending fd data.length flags (some (← shown destination))]
  | call => pure call.announcement

def peerRecord (value : Int) (peer : SocketAddress) : HostCall → Risky (List LogEvent)
  | .accept fd _ => do return [.accepted fd value (← shown peer)]
  | .recvfrom fd _ _ _ => do return [.received fd value (← shown peer)]
  | _ => pure []

/-- The memory after the host has stored its data in the range it was given. -/
def received (l : Landing) (reply : HostReply) : Risky Memory :=
  match l.data with
  | none => pure l.memory
  | some range => do
    let target ← slice l.memory range.offset range.length
    return l.memory.put range.offset.toNat (reply.data.take target.length)

/-- The slot's buffer with what the host has stored in it, if there is a slot. -/
def peerFilled (l : Landing) (reply : HostReply) : Risky (Option (PeerSlot × SocketAddress)) :=
  match l.peer with
  | none => pure none
  | some slot => do return some (slot, ← filled slot reply)

def answered (r : Request) (store : Store) (reply : HostReply) : Risky Answered :=
  match r.landing with
  | none => pure (r.answered store reply)
  | some l => do
    match ← attempt (received l reply) with
    | .error f => return ⟨store, .error f, []⟩
    | .ok memory =>
      let peer ← peerFilled l reply
      match r.call.outcome reply with
      | .error failure =>
        return ⟨store.replace l.address memory, .error (.syscallFailed failure),
          [.hostFailed reply.errno]⟩
      | .ok value =>
        match peer with
        | none => return ⟨store.replace l.address memory, narrow value, []⟩
        | some (slot, peer) =>
          let log ← peerRecord value peer r.call
          match ← attempt (writeBack slot memory peer) with
          | .error f => return ⟨store.replace l.address memory, .error f, log⟩
          | .ok memory => return ⟨store.replace l.address memory, narrow value, log⟩

/-- The end of a dispatch whose call was answered. -/
def concluded (m : Machine) (number : UInt32) (call : HostCall) (log : List LogEvent)
    (done : Answered) : Outcome :=
  let m := { m with store := done.store }
  match done.result with
  | .error f => m.trap number f [call] (log ++ done.log)
  | .ok n => ⟨{ m with stack := m.stack.push (.i32 n) }, .returned, [call], log ++ done.log⟩

def perform (m : Machine) (host : Host) (number : UInt32) (r : Request) (log : List LogEvent) :
    Risky Outcome :=
  match r.call with
  | .exit status => pure ⟨m, .exited status, [.exit status], log⟩
  | call => do
    let done ← answered r m.store (host.answer call)
    return concluded m number call log done

def invoke (m : Machine) (host : Host) (config : Config) (s : Syscall) : Risky Outcome :=
  let entry := LogEvent.invoked s m.stack.available
  match config.check s with
  | .error f => pure (m.trap s.number f [] [entry, .refused s])
  | .ok () => do
    match ← attempt (peekI32 m.stack s.arity) with
    | .error f => return m.trap s.number f [] [entry]
    | .ok args =>
      let log := entry :: .operands s args :: s.warnings
      match ← attempt (ofSyscall m args s) with
      | .error f => return m.trap s.number f [] log
      | .ok r =>
        let log := log ++ (← announcement r.call)
        match ← attempt (discard m.stack args.length) with
        | .error f => return m.trap s.number f [] log
        | .ok stack => perform { m with stack } host s.number r log

def dispatch (m : Machine) (host : Host) (config : Config) (number : UInt32) : Risky Outcome :=
  match Syscall.ofNumber? number with
  | some s => invoke m host config s
  | none => pure (m.trap number (.unknownSyscall number) [] [.unknownNumber number])

theorem announcement_gives (call : HostCall) :
    Gives (announcement call) (.ok call.announcement) := by
  cases call with
  | connect fd address | bind fd address => exact .step (shown_gives address) (.pure _)
  | sendto fd data flags destination =>
    cases destination with
    | none => exact .pure _
    | some address => exact .step (shown_gives address) (.pure _)
  | _ => exact .pure _

theorem peerRecord_gives (value : Int) (peer : SocketAddress) (call : HostCall) :
    Gives (peerRecord value peer call) (.ok (call.peerRecord value peer)) := by
  cases call with
  | accept fd buffer => exact .step (shown_gives peer) (.pure _)
  | recvfrom fd length flags buffer => exact .step (shown_gives peer) (.pure _)
  | _ => exact .pure _

theorem received_gives {l : Landing} {m : Machine} (h : l.Sound m) (reply : HostReply) :
    Gives (received l reply) (l.received reply) := by
  rw [h.received_eq]
  unfold received Landing.stored
  cases hd : l.data with
  | none => exact .pure _
  | some range =>
    -- The range was in the memory when the request was made, and the memory is the one of then.
    have hs := Memory.slice_eq_ok_iff.mpr ⟨h.data range hd, rfl⟩
    have hslice := slice_gives l.memory range.offset range.length
    have hlen := Memory.length_slice hs
    rw [hs] at hslice
    refine .step hslice ?_
    rw [hlen]
    exact .pure _

theorem peerFilled_gives (l : Landing) {reply : HostReply}
    (h : reply.address.length ≤ SocketAddress.capacity) :
    Gives (peerFilled l reply) (.ok (l.peer.map fun slot => (slot, slot.filled reply))) := by
  unfold peerFilled
  cases l.peer with
  | none => exact .pure none
  | some slot => exact .step (filled_gives slot h) (.pure _)

theorem answered_gives {r : Request} {m : Machine} (sound : ∀ l ∈ r.landing, l.Sound m)
    (store : Store) {reply : HostReply} (h : reply.address.length ≤ SocketAddress.capacity) :
    Gives (answered r store reply) (.ok (r.answered store reply)) := by
  unfold answered
  cases hl : r.landing with
  | none => exact .pure _
  | some l =>
    unfold Request.answered
    simp only [hl]
    refine .step (received_gives (sound l hl) reply).attempt ?_
    cases l.received reply with
    | error f => exact .pure _
    | ok memory =>
      refine .step (peerFilled_gives l h) ?_
      cases r.call.outcome reply with
      | error failure => exact .pure _
      | ok value =>
        cases l.peer with
        | none => exact .pure _
        | some slot =>
          refine .step (peerRecord_gives value (slot.filled reply) r.call) ?_
          refine .step (writeBack_gives slot memory (slot.filled reply)).attempt ?_
          dsimp only
          cases slot.writeBack memory (slot.filled reply) <;> exact .pure _

theorem perform_eq_concluded {r : Request} (hx : ∀ status, r.call ≠ .exit status) (m : Machine)
    (host : Host) (number : UInt32) (log : List LogEvent) :
    m.perform host number r log =
      concluded m number r.call log (r.answered m.store (host.answer r.call)) := by
  unfold Machine.perform
  split
  next status he => exact absurd he (hx status)
  next => rfl

theorem perform_gives {host : Host} (h : host.StaysInBuffer) {r : Request} {n : Machine}
    (sound : ∀ l ∈ r.landing, l.Sound n) (m : Machine) (number : UInt32) (log : List LogEvent) :
    Gives (perform m host number r log) (.ok (m.perform host number r log)) := by
  rcases r.call.exits_or_not with ⟨status, he⟩ | hx
  · rw [Machine.perform_exit host number log he, perform, he]
    exact .pure _
  · rw [perform_eq_concluded hx]
    unfold perform
    split
    next status he => exact absurd he (hx status)
    next => exact .step (answered_gives sound m.store (h r.call)) (.pure _)

theorem invoke_gives {host : Host} (h : host.StaysInBuffer) (m : Machine) (config : Config)
    (s : Syscall) : Gives (invoke m host config s) (.ok (m.invoke host config s)) := by
  unfold invoke Machine.invoke
  cases config.check s with
  | error f => exact .pure _
  | ok u =>
    refine .step (peekI32_gives m.stack s.arity).attempt ?_
    cases m.stack.peekI32 s.arity with
    | error f => exact .pure _
    | ok v =>
      refine .step (ofSyscall_gives m v).attempt ?_
      dsimp only
      cases hr : Request.ofSyscall m s v with
      | error f => exact .pure _
      | ok r =>
        have sound := (Request.faithful_of_ofSyscall hr).landing
        have hlen : v.toList.length = s.arity := Vector.length_toList
        have hdiscard := discard_gives m.stack v.toList.length
        rw [hlen] at hdiscard
        simp only [hlen]
        refine .step (announcement_gives r.call) (.step hdiscard.attempt ?_)
        cases m.stack.discard s.arity with
        | error f => exact .pure _
        | ok stack => exact perform_gives h sound _ _ _

theorem dispatch_gives {host : Host} (h : host.StaysInBuffer) (m : Machine) (config : Config)
    (number : UInt32) :
    Gives (dispatch m host config number) (.ok (m.dispatch host config number)) := by
  unfold dispatch Machine.dispatch
  cases Syscall.ofNumber? number with
  | none => exact .pure _
  | some s => exact invoke_gives h m config s

/-! ### Sessions -/

/-- A step on a memory, if the session can reach it and nobody holds it otherwise. -/
def memoryStep (s : Session) (a : MemoryAddress) (step : MemoryStep) : Risky Report :=
  match s.machine.store.cell a with
  | .error f => pure (s.refuse f)
  | .ok c =>
    let access := if step.changes then Access.writing else .reading
    if c.hold.admits access then do
      match ← attempt (run c.memory step) with
      | .ok (answer, m) =>
        return (s.withStore (s.machine.store.replace a m)).answer (.memory answer)
      | .error f => return s.refuse f
    else pure { after := s, result := .error (.busy access) }

/-- A step of a session; those that have nothing in them that could crash are taken as they are. -/
def sessionStep (s : Session) : Step → Risky Report
  | .peekI32 count => do
    return s.give ((← attempt (peekI32 s.machine.stack count)).map .integers)
  | .discard count => do
    return Session.step.popped s
      ((← attempt (discard s.machine.stack count)).map fun t => ((), t)) fun _ => .done
  | .allocate pages maximum => do
    match ← attempt (create pages maximum) with
    | .ok m =>
      let (store, a) := s.machine.store.allocate m
      return (s.withStore store).answer (.integer a.index)
    | .error f => return s.refuse f
  | .memory a step => memoryStep s a step
  | .call number operands host => do
    let s := s.withStack (s.machine.stack.pushAll (operands.map .i32))
    return s.ofOutcome (← dispatch s.machine host s.config number)
  | step => pure (s.step step)

def sessionRun (s : Session) : List Step → Risky (List Report)
  | [] => pure []
  | step :: rest => do
    let report ← sessionStep s step
    match report.result with
    | .ok .exited => return [report]
    | _ => return report :: (← sessionRun report.after rest)

theorem memoryStep_gives (s : Session) (a : MemoryAddress) (step : MemoryStep) :
    Gives (memoryStep s a step) (.ok (s.step (.memory a step))) := by
  change Gives _ (.ok (s.onMemory a (if step.changes then .writing else .reading) fun c =>
    s.memoryStep a c.memory step))
  unfold memoryStep Session.onMemory Session.memoryStep
  cases s.machine.store.cell a with
  | error f => exact .pure _
  | ok c =>
    dsimp only
    by_cases h : c.hold.admits (if step.changes then .writing else .reading)
    · rw [if_pos h, if_pos h]
      refine .step (run_gives c.memory step).attempt ?_
      cases step.run c.memory <;> exact .pure _
    · rw [if_neg h, if_neg h]
      exact .pure _

end Risky

/-- Steps whose host, if they call one, stores no more of an address than there is room for. -/
def Step.StaysInBuffer : Step → Prop
  | .call _ _ host => host.StaysInBuffer
  | _ => True

namespace Risky

theorem sessionStep_gives (s : Session) {step : Step} (h : step.StaysInBuffer) :
    Gives (sessionStep s step) (.ok (s.step step)) := by
  cases step with
  | peekI32 count =>
    refine .step (peekI32_gives s.machine.stack count).attempt ?_
    dsimp only [Session.step]
    cases s.machine.stack.peekI32 count <;> exact .pure _
  | discard count => exact .step (discard_gives s.machine.stack count).attempt (.pure _)
  | allocate pages maximum =>
    refine .step (create_gives pages maximum).attempt ?_
    dsimp only [Session.step]
    cases Memory.create pages maximum <;> exact .pure _
  | memory a step => exact memoryStep_gives s a step
  | call number operands host => exact .step (dispatch_gives h ..) (.pure _)
  | _ => exact .pure _

theorem sessionRun_gives {steps : List Step} (h : ∀ step ∈ steps, step.StaysInBuffer)
    (s : Session) : Gives (sessionRun s steps) (.ok (s.run steps)) := by
  induction steps generalizing s with
  | nil => exact .pure []
  | cons step rest ih =>
    have hrest := ih fun next hn => h next (List.mem_cons_of_mem _ hn)
    unfold sessionRun Session.run
    refine .step (sessionStep_gives s (h step List.mem_cons_self)) ?_
    dsimp only
    cases (s.step step).result with
    | error refusal => exact .step (hrest _) (.pure _)
    | ok answer =>
      cases answer with
      | exited => exact .pure _
      | _ => exact .step (hrest _) (.pure _)

end Risky

/-- No run of a session reaches a crash, whatever its state and its steps are: it gives what it
gives when nothing can crash. A memory that is in use is no crash either but a refusal. -/
theorem Session.run_crash_free {steps : List Step}
    (bounded : ∀ step ∈ steps, step.StaysInBuffer) :
    (∀ s : Session, Risky.Gives (Risky.sessionRun s steps) (.ok (s.run steps))) ∧
    ∀ (m : Machine) (host : Host) (config : Config) (s : Syscall) (v : Vector Int32 s.arity)
      (access : Access), host.StaysInBuffer → config.permits s = true →
      m.stack.peekI32 s.arity = .ok v → s.access? = some access → m.Clashes access →
      ∃ o, Risky.Gives (Risky.dispatch m host config s.number) (.ok o) ∧
        o.RefusedFor m s.number (s.unresolvedFault v (Store.inUse access)) := by
  refine ⟨fun s => Risky.sessionRun_gives bounded s, ?_⟩
  intro m host config s v access stays permitted operands accesses clash
  exact ⟨_, Risky.dispatch_gives stays m config s.number,
    clash.refusedFor permitted operands accesses host⟩

/-- A host that reports the greatest length for a peer's address of three bytes. -/
def Host.exaggerating : Host := .replying ⟨4, 0, [1, 2, 3, 4], [9, 9, 9], 4294967295⟩

/-- A receive whose data, address and length overlap, and what may then go wrong. -/
def Step.provoking : List Step :=
  [.call Syscall.recvfrom.number [3, 6, 4, 0, 4, 8] .exaggerating, .discard 100,
    .memory ⟨0⟩ (.grow 4294967295), .memory ⟨0⟩ (.strings 4294967295),
    .memory ⟨0⟩ (.writeWord 65533 7)]

theorem Session.provoking_crash_free :
    (∀ step ∈ Step.provoking, step.StaysInBuffer) ∧
    Risky.Gives (Risky.sessionRun { config := .permissive, machine := .overlapping } Step.provoking)
      (.ok (Session.run { config := .permissive, machine := .overlapping } Step.provoking)) ∧
    Host.exaggerating.StaysInBuffer ∧ Config.permissive.permits .recvfrom = true ∧
    Machine.contested.stack.peekI32 Syscall.recvfrom.arity = .ok #v[3, 6, 4, 0, 4, 8] ∧
    Machine.contested.Clashes .writing ∧
    ∃ o, Risky.Gives (Risky.dispatch .contested .exaggerating .permissive Syscall.recvfrom.number)
        (.ok o) ∧
      o.RefusedFor .contested Syscall.recvfrom.number (.memory .held) := by
  have stays : Host.exaggerating.StaysInBuffer := fun _ => Nat.le_of_ble_eq_true rfl
  have bounded : ∀ step ∈ Step.provoking, step.StaysInBuffer := by
    simp [Step.provoking, Step.StaysInBuffer, stays]
  have permitted : Config.permissive.permits .recvfrom = true := by decide
  obtain ⟨hrun, hrefused⟩ := run_crash_free bounded
  exact ⟨bounded, hrun _, stays, permitted, rfl, Machine.contested_clashes,
    hrefused .contested .exaggerating .permissive .recvfrom #v[3, 6, 4, 0, 4, 8] .writing stays
      permitted rfl rfl Machine.contested_clashes⟩

end GuestGate
