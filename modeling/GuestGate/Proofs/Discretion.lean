import GuestGate.Proofs.Matching
import GuestGate.Proofs.Readings

/-!
# What the log keeps quiet about

The records of a dispatch tell the operands, the addresses, the program and its arguments, and of
the rest no more than how much of it there is. Two dispatches that differ in data sent or received,
in the environment of a program or anywhere else in memory leave the same records.
-/

namespace GuestGate

/-! ## What a syscall shows of memory -/

/-- The places in memory whose bytes a syscall may put on record. -/
def Syscall.Shows (m : Memory) (s : Syscall) (v : Vector Int32 s.arity) (i : Nat) : Prop :=
  match s, v.toList with
  | .execve, [filename, argv, _] => m.InString filename.toUInt32 i ∨ m.InVector argv.toUInt32 i
  | .connect, [_, address, length]
  | .bind, [_, address, length]
  | .sendto, [_, _, _, _, address, length] =>
    Memory.InRange address.toUInt32 length.toInt.toNat i
  | .accept, [_, _, lengthAt]
  | .recvfrom, [_, _, _, _, _, lengthAt]
  | .nanosleep, [_, _, _, _, _, lengthAt] =>
    lengthAt ≠ 0 ∧ Memory.InRange lengthAt.toUInt32 4 i
  | _, _ => False

/-- Environments that a syscall may take, with the same bytes or at least as many entries. -/
def Syscall.SameEnvironment (m n : Memory) (s : Syscall) (v : Vector Int32 s.arity) : Prop :=
  match s, v.toList with
  | .execve, [_, _, envp] => m.SameAt n (m.InVector envp.toUInt32) ∨ m.SameCount n envp.toUInt32
  | _, _ => True

/-- Memories that look the same in the log of a syscall. -/
structure Memory.LooksLike (m n : Memory) (s : Syscall) (v : Vector Int32 s.arity) : Prop where
  size : m.size = n.size
  shown : m.SameAt n (s.Shows m v)
  environment : s.SameEnvironment m n v

/-- Two machines that have no memory of their own, or memories held alike that look the same. -/
def Machine.OwnLooksLike (m n : Machine) (s : Syscall) (v : Vector Int32 s.arity) : Prop :=
  Option.Rel (fun c d => c.hold = d.hold ∧ c.memory.LooksLike d.memory s v) m.ownCell? n.ownCell?

/-- Two machines with the same operands for a syscall, if they are there, and whose memories look
the same, if it uses any. -/
structure Machine.LooksLike (m n : Machine) (s : Syscall) : Prop where
  available : m.stack.available = n.stack.available
  operands : m.stack.operands.take s.arity = n.stack.operands.take s.arity
  memory : s.usesMemory = true → ∀ v, m.stack.peekI32 s.arity = .ok v → m.OwnLooksLike n s v

/-- Two calls of one primitive that differ at most in the data to send or in the environment, and
not in how much of either there is. -/
inductive HostCall.LooksLike : HostCall → HostCall → Prop where
  | same (call : HostCall) : LooksLike call call
  | execve {filename : List UInt8} {argv envp envp' : List (List UInt8)} :
    envp.length = envp'.length →
      LooksLike (.execve ⟨filename, argv, envp⟩) (.execve ⟨filename, argv, envp'⟩)
  | sendto {fd flags : Int32} {data data' : List UInt8} {destination : Option SocketAddress} :
    data.length = data'.length →
      LooksLike (.sendto fd data flags destination) (.sendto fd data' flags destination)

structure Request.LooksLike (r q : Request) : Prop where
  call : r.call.LooksLike q.call
  peer : r.landing.bind Landing.peer = q.landing.bind Landing.peer

/-- Replies that differ at most in the data that came in. -/
structure HostReply.LooksLike (a b : HostReply) : Prop where
  value : a.value = b.value
  errno : a.errno = b.errno
  address : a.address = b.address
  addressLength : a.addressLength = b.addressLength

namespace ExecArgs

theorem decode_paired {m n : Memory} {filename argv envp : Int32}
    (h : m.LooksLike n .execve #v[filename, argv, envp]) :
    Paired (fun x y => (HostCall.execve x).LooksLike (.execve y))
      (decode m filename.toUInt32 argv.toUInt32 envp.toUInt32)
      (decode n filename.toUInt32 argv.toUInt32 envp.toUInt32) := by
  have hfilename : m.SameAt n (m.InString filename.toUInt32) := fun i hi => h.shown i (.inl hi)
  have hargv : m.SameAt n (m.InVector argv.toUInt32) := fun i hi => h.shown i (.inr hi)
  have henvp : Paired (fun ss ts => ss.length = ts.length) (m.strings envp.toUInt32)
      (n.strings envp.toUInt32) := by
    rcases h.environment with hsame | hcount
    · exact (Memory.strings_paired hsame).mono fun _ _ he => congrArg List.length he
    · exact Memory.count_paired hcount
  rw [decode_eq, decode_eq]
  refine .bind_same (Memory.string_paired hfilename) fun filename => ?_
  refine .bind_same (Memory.strings_paired hargv) fun argv => ?_
  refine henvp.bind fun envp envp' hlength => ?_
  exact .ok (.execve hlength)

end ExecArgs

theorem stagedAddress_paired {m n : Memory} {pointer length : Int32} (hs : m.size = n.size)
    (h : m.SameAt n (Memory.InRange pointer.toUInt32 length.toInt.toNat)) :
    Paired Eq (stagedAddress m pointer length) (stagedAddress n pointer length) := by
  unfold stagedAddress
  cases hl : guestLength length with
  | error f => exact .error f f
  | ok k =>
    have hk : k = length.toInt.toNat := by
      have := guestLength_eq_ok_iff.mp hl
      omega
    subst hk
    change Paired Eq (m.slice _ _ >>= _) (n.slice _ _ >>= _)
    exact .bind_same (Memory.slice_paired hs h) fun bytes => .refl _

theorem PeerSlot.ofOperands_paired {m n : Memory} {offset lengthAt : Int32} (hs : m.size = n.size)
    (h : m.SameAt n fun i => lengthAt ≠ 0 ∧ Memory.InRange lengthAt.toUInt32 4 i) :
    Paired Eq (ofOperands m offset lengthAt) (ofOperands n offset lengthAt) := by
  unfold ofOperands
  split
  · exact .ok rfl
  next hne =>
    have hword := Memory.readWord_paired hs fun i hi => h i ⟨hne, hi⟩
    refine .bind_same hword fun capacity => ?_
    exact .bind_same (Memory.check_paired hs ..) fun _ => .ok rfl

namespace Machine

variable {m n : Machine} {s : Syscall} {v : Vector Int32 s.arity}

theorem guestMemory_of_no_ownCell (h : m.ownCell? = none) (access : Access) :
    ∃ f, m.guestMemory access = .error f := by
  cases hm : m.guestMemory access with
  | error f => exact ⟨f, rfl⟩
  | ok found =>
    obtain ⟨a, memory⟩ := found
    obtain ⟨ha, hmemory⟩ := guestMemory_eq_ok_iff.mp hm
    obtain ⟨c, hc, -⟩ := Store.memory_eq_ok_iff.mp hmemory
    rw [ownCell?, ha, Option.bind_some, hc] at h
    cases h

theorem OwnLooksLike.guestMemory (h : m.OwnLooksLike n s v) (access : Access) :
    Paired (fun x y => x.2.LooksLike y.2 s v) (m.guestMemory access) (n.guestMemory access) := by
  rw [OwnLooksLike] at h
  cases hc : m.ownCell? with
  | none =>
    cases hd : n.ownCell? with
    | none =>
      obtain ⟨f, hf⟩ := guestMemory_of_no_ownCell hc access
      obtain ⟨g, hg⟩ := guestMemory_of_no_ownCell hd access
      rw [hf, hg]
      exact .error f g
    | some d =>
      rw [hc, hd] at h
      cases h
  | some c =>
    cases hd : n.ownCell? with
    | none =>
      rw [hc, hd] at h
      cases h
    | some d =>
      rw [hc, hd] at h
      obtain ⟨hhold, hmemory⟩ : c.hold = d.hold ∧ c.memory.LooksLike d.memory s v := by
        cases h with
        | some hcd => exact hcd
      obtain ⟨a, -, -, hm⟩ := guestMemory_of_ownCell hc access
      obtain ⟨b, -, -, hn⟩ := guestMemory_of_ownCell hd access
      rw [hm, hn, hhold]
      split
      · exact .ok hmemory
      · exact .error _ _

end Machine

namespace Request

variable {m n : Machine}

theorem looksLike_of_call (call : HostCall) :
    Paired LooksLike (.ok { call := call }) (.ok { call := call }) := .ok ⟨.same call, rfl⟩

theorem execve_paired {filename argv envp : Int32}
    (h : m.OwnLooksLike n .execve #v[filename, argv, envp]) :
    Paired LooksLike (execve m filename argv envp) (execve n filename argv envp) := by
  refine (h.guestMemory .reading).bind fun x y hxy => ?_
  refine (ExecArgs.decode_paired hxy).bind fun args args' hargs => ?_
  exact .ok ⟨hargs, rfl⟩

/-- A call with an address, by whichever of the two syscalls it serves. -/
theorem staged_paired (call : SocketAddress → HostCall) {pointer length : Int32}
    (h : Paired (fun x y => x.2.size = y.2.size ∧
        x.2.SameAt y.2 (Memory.InRange pointer.toUInt32 length.toInt.toNat))
      (m.guestMemory .reading) (n.guestMemory .reading)) :
    Paired LooksLike (staged m call pointer length) (staged n call pointer length) := by
  refine h.bind fun x y hxy => ?_
  refine .bind_same (stagedAddress_paired hxy.1 hxy.2) fun address => ?_
  exact looksLike_of_call (call address)

theorem accept_paired {fd source lengthAt : Int32}
    (h : m.OwnLooksLike n .accept #v[fd, source, lengthAt]) :
    Paired LooksLike (accept m fd source lengthAt) (accept n fd source lengthAt) := by
  refine (h.guestMemory .writing).bind fun x y hxy => ?_
  refine .bind_same (PeerSlot.ofOperands_paired hxy.size hxy.shown) fun peer => ?_
  exact .ok ⟨.same _, rfl⟩

theorem sendto_paired {fd pointer length flags destination addressLength : Int32}
    (h : m.OwnLooksLike n .sendto #v[fd, pointer, length, flags, destination, addressLength]) :
    Paired LooksLike (sendto m fd pointer length flags destination addressLength)
      (sendto n fd pointer length flags destination addressLength) := by
  refine .bind_same (.refl _) fun sent => (h.guestMemory .reading).bind fun x y hxy => ?_
  refine (Memory.slice_length_paired hxy.size ..).bind fun data data' hdata => ?_
  by_cases hz : addressLength = 0
  · simp only [hz, if_true]
    exact .ok ⟨.sendto hdata, rfl⟩
  · simp only [hz, if_false]
    refine .bind_same (stagedAddress_paired hxy.size hxy.shown) fun address => ?_
    exact .ok ⟨.sendto hdata, rfl⟩

/-- A receive, by whichever of the two syscalls it serves. -/
theorem recvfrom_paired {fd pointer length flags source lengthAt : Int32}
    (h : Paired (fun x y => x.2.size = y.2.size ∧
        x.2.SameAt y.2 fun i => lengthAt ≠ 0 ∧ Memory.InRange lengthAt.toUInt32 4 i)
      (m.guestMemory .writing) (n.guestMemory .writing)) :
    Paired LooksLike (recvfrom m fd pointer length flags source lengthAt)
      (recvfrom n fd pointer length flags source lengthAt) := by
  refine .bind_same (.refl _) fun room => h.bind fun x y hxy => ?_
  refine .bind_same (Memory.check_paired hxy.1 ..) fun _ => ?_
  refine .bind_same (PeerSlot.ofOperands_paired hxy.1 hxy.2) fun peer => ?_
  exact .ok ⟨.same _, rfl⟩

theorem ofSyscall_paired {s : Syscall} {v : Vector Int32 s.arity}
    (h : s.usesMemory = true → m.OwnLooksLike n s v) :
    Paired LooksLike (ofSyscall m s v) (ofSyscall n s v) := by
  cases s
  case execve =>
    obtain ⟨filename, argv, envp, rfl⟩ := Vector.exists_three v
    exact execve_paired (h rfl)
  case connect | bind =>
    obtain ⟨fd, pointer, length, rfl⟩ := Vector.exists_three v
    exact staged_paired _ (((h rfl).guestMemory .reading).mono fun _ _ hxy => ⟨hxy.size, hxy.shown⟩)
  case accept =>
    obtain ⟨fd, source, lengthAt, rfl⟩ := Vector.exists_three v
    exact accept_paired (h rfl)
  case sendto =>
    obtain ⟨fd, pointer, length, flags, destination, addressLength, rfl⟩ := Vector.exists_six v
    exact sendto_paired (h rfl)
  case recvfrom | nanosleep =>
    obtain ⟨fd, pointer, length, flags, source, lengthAt, rfl⟩ := Vector.exists_six v
    exact recvfrom_paired (((h rfl).guestMemory .writing).mono fun _ _ hxy => ⟨hxy.size, hxy.shown⟩)
  all_goals exact looksLike_of_call _

end Request

/-! ## The records -/

namespace HostCall.LooksLike

variable {call call' : HostCall}

theorem announcement (h : call.LooksLike call') : call.announcement = call'.announcement := by
  cases h with
  | same => rfl
  | execve hlength => simp [HostCall.announcement, hlength]
  | sendto hlength => simp [HostCall.announcement, hlength]

theorem peerRecord (h : call.LooksLike call') (value : Int) (peer : SocketAddress) :
    call.peerRecord value peer = call'.peerRecord value peer := by
  cases h <;> rfl

theorem outcome (h : call.LooksLike call') {a b : HostReply} (hab : a.LooksLike b) :
    call.outcome a = call'.outcome b := by
  have hreply : a.outcome = b.outcome := by
    rw [HostReply.outcome, HostReply.outcome, hab.value, hab.errno]
  cases h with
  | same =>
    unfold HostCall.outcome
    split
    · rw [hab.value]
    · exact hreply
  | execve => exact hreply
  | sendto => exact hreply

theorem exit_iff (h : call.LooksLike call') (status : Int32) :
    call = .exit status ↔ call' = .exit status := by
  cases h <;> simp

end HostCall.LooksLike

theorem PeerSlot.filled_congr (slot : PeerSlot) {a b : HostReply} (h : a.LooksLike b) :
    slot.filled a = slot.filled b := by
  rw [filled, filled, h.address, h.addressLength]

theorem Request.LooksLike.records {r q : Request} (h : r.LooksLike q) {a b : HostReply}
    (hab : a.LooksLike b) : r.records a = q.records b := by
  unfold Request.records
  rw [h.call.outcome hab, h.peer]
  cases q.call.outcome b with
  | error failure => simp only [hab.errno]
  | ok value =>
    cases q.landing.bind Landing.peer with
    | none => rfl
    | some slot => simp only [slot.filled_congr hab, h.call.peerRecord]

namespace Machine

variable {m n : Machine} {config : Config} {s : Syscall}

/-- No record follows the exit of the host process. -/
theorem Passes.log_exit {v : Vector Int32 s.arity} {r : Request} (h : m.Passes config s v r)
    {status : Int32} (hx : r.call = .exit status) (host : Host) :
    (m.dispatch host config s.number).log = s.preamble m.stack.available v r := by
  rw [h.dispatch_eq, perform_exit host _ _ hx]

theorem Passes.log_answered {v : Vector Int32 s.arity} {r : Request} (h : m.Passes config s v r)
    (hx : ∀ status, r.call ≠ .exit status) (host : Host) :
    (m.dispatch host config s.number).log =
      s.preamble m.stack.available v r ++ r.records (host.answer r.call) := by
  rw [h.dispatch_eq, perform_eq h.faithful.landing hx]
  cases r.call.result (host.answer r.call) <;> rfl

namespace LooksLike

theorem peekI32 (h : m.LooksLike n s) : m.stack.peekI32 s.arity = n.stack.peekI32 s.arity := by
  unfold Stack.peekI32
  rw [h.available, Stack.integers_take, h.operands, ← Stack.integers_take]

theorem request {v : Vector Int32 s.arity} (h : m.LooksLike n s)
    (ho : m.stack.peekI32 s.arity = .ok v) :
    Paired Request.LooksLike (Request.ofSyscall m s v) (Request.ofSyscall n s v) :=
  Request.ofSyscall_paired fun uses => h.memory uses v ho

/-- A trap that is refused is refused after the same records. -/
theorem refuses {f : Fault} {log : List LogEvent} (h : m.LooksLike n s)
    (hr : m.Refuses config s f log) : ∃ g, n.Refuses config s g log := by
  cases hr with
  | denied hc => exact ⟨_, .denied hc⟩
  | operands hc ho => exact ⟨f, .operands hc (h.peekI32 ▸ ho)⟩
  | request hc ho hf =>
    have hpaired := h.request ho
    rw [hf] at hpaired
    obtain ⟨g, hg⟩ := hpaired.of_error
    exact ⟨g, .request hc (h.peekI32 ▸ ho) hg⟩

theorem passes {v : Vector Int32 s.arity} {r : Request} (h : m.LooksLike n s)
    (hp : m.Passes config s v r) : ∃ q, n.Passes config s v q ∧ r.LooksLike q := by
  have hpaired := h.request hp.operands
  rw [hp.granted] at hpaired
  obtain ⟨q, hq, hrq⟩ := hpaired.of_ok
  exact ⟨q, ⟨hp.permitted, h.peekI32 ▸ hp.operands, hq⟩, hrq⟩

theorem preamble {v : Vector Int32 s.arity} {r q : Request} (h : m.LooksLike n s)
    (hrq : r.LooksLike q) :
    s.preamble m.stack.available v r = s.preamble n.stack.available v q := by
  rw [Syscall.preamble, Syscall.preamble, h.available, hrq.call.announcement]

end LooksLike

/-- Dispatches that look alike, on machines that look alike and with replies that do, leave the same
records. -/
theorem dispatch_discreet {number : UInt32} {host host' : Host}
    (alike : ∀ s : Syscall, s.number = number → m.LooksLike n s)
    (replies : ∀ call ∈ (m.dispatch host config number).calls,
      ∀ call' ∈ (n.dispatch host' config number).calls,
        (host.answer call).LooksLike (host'.answer call')) :
    (m.dispatch host config number).log = (n.dispatch host' config number).log := by
  cases hs : Syscall.ofNumber? number with
  | none =>
    rw [dispatch, dispatch, hs]
    rfl
  | some s =>
    obtain rfl := Syscall.ofNumber?_eq_some_iff.mp hs
    have h := alike s rfl
    rcases m.refuses_or_passes config s with ⟨f, log, hr⟩ | ⟨v, r, hp⟩
    · obtain ⟨g, hr'⟩ := h.refuses hr
      rw [hr.dispatch_eq, hr'.dispatch_eq, h.available]
      rfl
    · obtain ⟨q, hq, hrq⟩ := h.passes hp
      rcases r.call.exits_or_not with ⟨status, hx⟩ | hx
      · rw [hp.log_exit hx, hq.log_exit ((hrq.call.exit_iff status).mp hx), h.preamble hrq]
      · have hx' (status : Int32) : q.call ≠ .exit status :=
          mt (hrq.call.exit_iff status).mpr (hx status)
        have hreplies : (host.answer r.call).LooksLike (host'.answer q.call) :=
          replies _ (by simp [hp.calls_eq]) _ (by simp [hq.calls_eq])
        rw [hp.log_answered hx, hq.log_answered hx', h.preamble hrq, hrq.records hreplies]

/-- A page with a program's name, its arguments and its environment one after the other. -/
def spawningMemory (envp : List (List UInt8)) : Memory :=
  (Memory.blank 1 Memory.one_le_maxPages).put 0 (terminated [97] ++ (listed [[97]] ++ listed envp))

/-- A trap that runs the program. -/
def spawning (envp : List (List UInt8)) : Machine where
  store := ⟨#[{ memory := spawningMemory envp }]⟩
  stack :=
    (({} : Stack).pushFrame ⟨⟨"guest", [⟨0⟩]⟩, 0, [], 0⟩).pushAll [.i32 0, .i32 2, .i32 5]

/-- An environment that a page has room for. -/
structure Spawnable (envp : List (List UInt8)) : Prop where
  clean : ∀ s ∈ envp, s ≠ [] ∧ 0 ∉ s
  room : (listed envp).length ≤ 65531

variable {envp envp' : List (List UInt8)}

theorem Spawnable.fits (h : Spawnable envp) :
    0 + (terminated [97] ++ (listed [[97]] ++ listed envp)).length ≤
      (Memory.blank 1 Memory.one_le_maxPages).size := by
  have := h.room
  rw [Memory.size_blank, List.length_append, List.length_append]
  change 0 + (2 + (3 + (listed envp).length)) ≤ 65536
  omega

theorem Spawnable.laidOut (h : Spawnable envp) :
    ExecArgs.LaidOut ⟨[97], [[97]], envp⟩ (spawningMemory envp) 0 2 5 := by
  obtain ⟨hfilename, hrest⟩ := Memory.holds_append.mp (Memory.holds_put h.fits)
  obtain ⟨hargv, henvp⟩ := Memory.holds_append.mp hrest
  exact ⟨⟨by simp, hfilename⟩, ⟨by simp, hargv⟩, ⟨h.clean, henvp⟩⟩

theorem Spawnable.view (h : Spawnable envp) {i : Nat} (hi : i < 5) :
    (spawningMemory envp).view i = (terminated [97] ++ listed [[97]])[i]? := by
  have hlength : i < (terminated [97] ++ listed [[97]]).length := hi
  rw [spawningMemory, Memory.view_put h.fits, ← List.append_assoc, overlay,
    if_pos ⟨Nat.zero_le i, by rw [List.length_append]; omega⟩, Nat.sub_zero,
    List.getElem?_append_left hlength]

theorem spawningMemory_looksLike (h : Spawnable envp) (h' : Spawnable envp')
    (count : envp.length = envp'.length) :
    (spawningMemory envp).LooksLike (spawningMemory envp') .execve #v[0, 2, 5] := by
  refine ⟨?_, fun i hi => ?_, .inr (.of_holds h.laidOut.envp h'.laidOut.envp count)⟩
  · exact (Memory.size_put ..).trans (Memory.size_put ..).symm
  · have hlt : i < 5 := by
      rcases hi with ⟨-, hstring⟩ | ⟨-, hvector⟩
      · have : i < 2 := hstring _ h.laidOut.filename
        omega
      · exact hvector _ h.laidOut.argv
    rw [h.view hlt, h'.view hlt]

theorem spawning_looksLike (h : Spawnable envp) (h' : Spawnable envp')
    (count : envp.length = envp'.length) : (spawning envp).LooksLike (spawning envp') .execve := by
  refine ⟨rfl, rfl, fun _ v hv => ?_⟩
  obtain rfl : #v[0, 2, 5] = v := Except.ok.inj hv
  exact .some ⟨rfl, spawningMemory_looksLike h h' count⟩

theorem spawning_calls (h : Spawnable envp) (host : Host) :
    ((spawning envp).dispatch host .permissive Syscall.execve.number).calls =
      [.execve ⟨[97], [[97]], envp⟩] := by
  have hpasses : (spawning envp).Passes .permissive .execve #v[0, 2, 5]
      { call := .execve ⟨[97], [[97]], envp⟩ } := by
    have hmemory : (spawning envp).guestMemory .reading = .ok (⟨0⟩, spawningMemory envp) := rfl
    have hdecode := ExecArgs.decode_eq_ok_iff.mpr h.laidOut
    exact ⟨by decide, rfl, Request.execve_eq_ok_iff.mpr ⟨_, _, _, hmemory, hdecode, rfl⟩⟩
  exact hpasses.calls_eq host

/-- A short secret and a long one in the environment are told to the host and leave the same
records, whatever else the two hosts store. -/
theorem secrets_unlogged :
    (∀ s : Syscall, s.number = Syscall.execve.number →
      (spawning [[75, 61, 49]]).LooksLike (spawning [[75, 61, 50, 51, 52]]) s) ∧
    ((spawning [[75, 61, 49]]).dispatch (.replying ⟨-1, 2, [1], [], 0⟩) .permissive
      Syscall.execve.number).calls = [.execve ⟨[97], [[97]], [[75, 61, 49]]⟩] ∧
    ((spawning [[75, 61, 50, 51, 52]]).dispatch (.replying ⟨-1, 2, [8, 9], [], 0⟩) .permissive
      Syscall.execve.number).calls = [.execve ⟨[97], [[97]], [[75, 61, 50, 51, 52]]⟩] ∧
    ((spawning [[75, 61, 49]]).dispatch (.replying ⟨-1, 2, [1], [], 0⟩) .permissive
      Syscall.execve.number).log =
    ((spawning [[75, 61, 50, 51, 52]]).dispatch (.replying ⟨-1, 2, [8, 9], [], 0⟩) .permissive
      Syscall.execve.number).log := by
  have hshort : Spawnable [[75, 61, 49]] := ⟨by decide, by decide⟩
  have hlong : Spawnable [[75, 61, 50, 51, 52]] := ⟨by decide, by decide⟩
  have alike (s : Syscall) (hs : s.number = Syscall.execve.number) :
      (spawning [[75, 61, 49]]).LooksLike (spawning [[75, 61, 50, 51, 52]]) s := by
    have hsome : some s = some .execve :=
      (Syscall.ofNumber?_eq_some_iff.mpr hs).symm.trans (Syscall.ofNumber?_number .execve)
    obtain rfl := Option.some.inj hsome
    exact spawning_looksLike hshort hlong rfl
  refine ⟨alike, spawning_calls hshort _, spawning_calls hlong _, dispatch_discreet alike ?_⟩
  intro call hcall call' hcall'
  rw [spawning_calls hshort, List.mem_singleton] at hcall
  rw [spawning_calls hlong, List.mem_singleton] at hcall'
  subst hcall hcall'
  exact ⟨rfl, rfl, rfl, rfl⟩

end Machine

end GuestGate
