import GuestGate.Proofs.Dispatch
import GuestGate.Proofs.MemoryView

/-!
# Copying a peer's address back

What the guest's memory holds after a call that asked for the peer's address. The data the host
stored comes first, then as much of the address as the guest had room for before the call, then the
length the host reported, each over the ones before it, wherever the three lie.
-/

namespace GuestGate

/-- The operands by which a syscall receives: an offset and a length for data, if it takes any, and
the offsets of the address and of the word with its length. -/
structure Receiving where
  data : Option (Int32 × Int32)
  address : Int32
  lengthAt : Int32
deriving DecidableEq, Repr

def Syscall.receiving? (s : Syscall) (v : Vector Int32 s.arity) : Option Receiving :=
  match s, v.toList with
  | .accept, [_, address, lengthAt] => some ⟨none, address, lengthAt⟩
  | .recvfrom, [_, offset, length, _, address, lengthAt]
  | .nanosleep, [_, offset, length, _, address, lengthAt] =>
    some ⟨some (offset, length), address, lengthAt⟩
  | _, _ => none

/-- The buffer for a peer's address that goes with a call. -/
def HostCall.peer? : HostCall → Option SocketAddress
  | .accept _ peer => peer
  | .recvfrom _ _ _ peer => peer
  | _ => none

/-- What a buffer of zeros holds after the host has stored an address in it. -/
def HostReply.addressBuffer (reply : HostReply) : List UInt8 :=
  (reply.address ++ List.replicate 128 0).take 128

namespace Receiving

/-- The memory with the host's data laid over it, of which no more than the range arrives. -/
def withData (w : Receiving) (reply : HostReply) (before : Memory) : Nat → Option UInt8 :=
  match w.data with
  | none => before.view
  | some (offset, length) =>
    overlay offset.toUInt32.toNat (reply.data.take length.toInt.toNat) before.view

/-- A memory before and after a call that asked for the peer's address and did not fail. -/
structure CopiedBack (w : Receiving) (capacity : UInt32) (reply : HostReply)
    (before after : Memory) : Prop where
  view : after.view =
    overlay w.lengthAt.toUInt32.toNat (Bytes.ofWord reply.addressLength)
      (overlay w.address.toUInt32.toNat
        (reply.addressBuffer.take (min (min reply.addressLength.toNat 128) capacity.toNat))
        (w.withData reply before))
  size : after.size = before.size
  pages : after.pages = before.pages
  maximum : after.maximum = before.maximum
  length : after.readWord w.lengthAt.toUInt32 = .ok reply.addressLength

/-- Every check that such a call has to pass: the guest's memory is held by nobody, the data has
room there, and so does an address of the length that the guest has put down. -/
structure Valid (w : Receiving) (m : Machine) (a : MemoryAddress) (before : Memory)
    (capacity : UInt32) : Prop where
  memory : m.guestMemory .writing = .ok (a, before)
  data : ∀ offset length, w.data = some (offset, length) →
    0 ≤ length.toInt ∧ before.Contains offset.toUInt32 length.toInt.toNat
  room : before.readWord w.lengthAt.toUInt32 = .ok capacity
  buffer : before.Contains w.address.toUInt32 capacity.toNat

end Receiving

namespace PeerSlot

variable {slot : PeerSlot} {m : Memory}

theorem view_written (hb : m.Contains slot.offset slot.capacity.toNat)
    (hl : m.Contains slot.lengthAt 4) (a : SocketAddress) :
    (slot.written m a).view =
      overlay slot.lengthAt.toNat (Bytes.ofWord a.length)
        (overlay slot.offset.toNat (a.bytes.take slot.capacity.toNat) m.view) := by
  have ht : (a.bytes.take slot.capacity.toNat).length ≤ slot.capacity.toNat :=
    List.length_take_le _ _
  have hw : (m.put slot.offset.toNat (a.bytes.take slot.capacity.toNat)).Contains slot.lengthAt 4 :=
    Memory.contains_put.mpr hl
  rw [written, Memory.view_put hw, Memory.view_put (hb.mono ht)]

theorem readWord_written (hl : m.Contains slot.lengthAt 4) (a : SocketAddress) :
    (slot.written m a).readWord slot.lengthAt = .ok a.length :=
  Memory.readWord_put (Memory.contains_put.mpr hl) a.length

theorem length_filled (slot : PeerSlot) (reply : HostReply) :
    (slot.filled reply).length = reply.addressLength := rfl

/-- The buffer offered is empty, and as long as both the guest and the buffer have room. -/
theorem buffer_eq (slot : PeerSlot) :
    slot.buffer.storage.toList = List.replicate 128 0 ∧
      slot.buffer.length.toNat = min slot.capacity.toNat 128 :=
  ⟨by simp [buffer, SocketAddress.forOutput, SocketAddress.zeros, SocketAddress.capacity],
    SocketAddress.length_forOutput slot.capacity⟩

/-- The part of a filled buffer that counts ends with the length reported, or with the buffer. -/
theorem bytes_filled_eq (slot : PeerSlot) (reply : HostReply) :
    (slot.filled reply).bytes = reply.addressBuffer.take (min reply.addressLength.toNat 128) := by
  have hb : (slot.filled reply).bytes = reply.addressBuffer.take reply.addressLength.toNat :=
    congrArg (List.take reply.addressLength.toNat) (SocketAddress.toList_fill_zeros _ reply.address)
  have hl : reply.addressBuffer.length = 128 := by
    rw [HostReply.addressBuffer, List.length_take, List.length_append, List.length_replicate]
    omega
  rw [hb]
  apply List.take_eq_take_iff.mpr
  omega

/-- What is copied of a buffer is cut to the length reported, the buffer and the guest's room. -/
theorem bytes_filled (slot : PeerSlot) (reply : HostReply) :
    (slot.filled reply).bytes.take slot.capacity.toNat =
      reply.addressBuffer.take (min (min reply.addressLength.toNat 128) slot.capacity.toNat) := by
  rw [bytes_filled_eq, List.take_take, Nat.min_comm slot.capacity.toNat]

end PeerSlot

/-- A request that receives: its answer lands where the operands say, with a slot for the peer's
address if they ask for it. -/
structure Request.Lands (r : Request) (m : Machine) (w : Receiving) (l : Landing) : Prop where
  landing : r.landing = some l
  sound : l.Sound m
  data : l.data = w.data.map fun (offset, length) => ⟨offset.toUInt32, length.toInt.toNat⟩
  lengths : ∀ offset length, w.data = some (offset, length) → 0 ≤ length.toInt
  outcome : ∀ reply, r.call.outcome reply = reply.outcome
  unasked : l.peer = none ↔ w.lengthAt = 0
  slots : ∀ slot ∈ l.peer, slot.offset = w.address.toUInt32 ∧
    slot.lengthAt = w.lengthAt.toUInt32 ∧ r.call.peer? = some slot.buffer

/-- A request that receives and asks for the peer's address. -/
structure Request.Receives (r : Request) (m : Machine) (w : Receiving) (l : Landing)
    (slot : PeerSlot) : Prop extends r.Lands m w l where
  peer : l.peer = some slot
  address : slot.offset = w.address.toUInt32
  lengthAt : slot.lengthAt = w.lengthAt.toUInt32
  buffer : r.call.peer? = some slot.buffer

/-- What the checks of a slot say about it, if there is one. -/
theorem PeerSlot.ofOperands_spec {m : Memory} {offset lengthAt : Int32} {peer : Option PeerSlot}
    (h : ofOperands m offset lengthAt = .ok peer) :
    (peer = none ↔ lengthAt = 0) ∧ ∀ slot ∈ peer, slot.offset = offset.toUInt32 ∧
      slot.lengthAt = lengthAt.toUInt32 ∧ slot.FitsIn m := by
  cases peer with
  | none => exact ⟨by simp [ofOperands_eq_none_iff.mp h], nofun⟩
  | some slot =>
    obtain ⟨hne, ha, hl, hf⟩ := ofOperands_eq_some_iff.mp h
    refine ⟨by simp [hne], ?_⟩
    rintro _ ⟨⟩
    exact ⟨ha, hl, hf⟩

namespace Request

variable {m : Machine} {r : Request}

theorem accept_lands {fd address lengthAt : Int32} (h : accept m fd address lengthAt = .ok r) :
    ∃ l, r.Lands m ⟨none, address, lengthAt⟩ l := by
  obtain ⟨a, memory, peer, hm, hp, rfl⟩ := accept_eq_ok_iff.mp h
  obtain ⟨hnone, hslot⟩ := PeerSlot.ofOperands_spec hp
  refine ⟨_, rfl, ⟨hm, by simp, fun slot hs => (hslot slot hs).2.2⟩, rfl, nofun, fun _ => rfl,
    hnone, ?_⟩
  rintro slot ⟨⟩
  exact ⟨(hslot slot rfl).1, (hslot slot rfl).2.1, rfl⟩

theorem recvfrom_lands {fd offset length flags address lengthAt : Int32}
    (h : recvfrom m fd offset length flags address lengthAt = .ok r) :
    ∃ l, r.Lands m ⟨some (offset, length), address, lengthAt⟩ l := by
  obtain ⟨n, a, memory, peer, hn, hm, hc, hp, rfl⟩ := recvfrom_eq_ok_iff.mp h
  obtain ⟨hnone, hslot⟩ := PeerSlot.ofOperands_spec hp
  have hlen : length.toInt = n := guestLength_eq_ok_iff.mp hn
  refine ⟨_, rfl, ⟨hm, ?_, fun slot hs => (hslot slot hs).2.2⟩, ?_, ?_, fun _ => rfl, hnone, ?_⟩
  · rintro _ ⟨⟩
    exact hc
  · have hnat : n = length.toInt.toNat := by rw [hlen, Int.toNat_natCast]
    rw [hnat]
    rfl
  · rintro _ _ ⟨⟩
    rw [hlen]
    exact Int.natCast_nonneg n
  · rintro slot ⟨⟩
    exact ⟨(hslot slot rfl).1, (hslot slot rfl).2.1, rfl⟩

theorem ofSyscall_lands {s : Syscall} {v : Vector Int32 s.arity} {w : Receiving}
    (hw : s.receiving? v = some w) (h : ofSyscall m s v = .ok r) : ∃ l, r.Lands m w l := by
  unfold Syscall.receiving? at hw
  rw [Vector.toList_eq_map_finRange] at hw
  cases s
  case accept =>
    cases hw
    exact accept_lands h
  case recvfrom | nanosleep =>
    cases hw
    exact recvfrom_lands h
  all_goals cases hw

theorem Lands.receives {w : Receiving} {l : Landing} {slot : PeerSlot} (h : r.Lands m w l)
    (hp : l.peer = some slot) : r.Receives m w l slot := by
  obtain ⟨ha, hl, hb⟩ := h.slots slot hp
  exact ⟨h, hp, ha, hl, hb⟩

theorem ofSyscall_receives {s : Syscall} {v : Vector Int32 s.arity} {w : Receiving}
    (hw : s.receiving? v = some w) (hne : w.lengthAt ≠ 0) (h : ofSyscall m s v = .ok r) :
    ∃ l slot, r.Receives m w l slot := by
  obtain ⟨l, hl⟩ := ofSyscall_lands hw h
  obtain ⟨slot, hs⟩ := Option.ne_none_iff_exists'.mp (mt hl.unasked.mp hne)
  exact ⟨l, slot, hl.receives hs⟩

theorem ofOperands_of_valid {w : Receiving} {a : MemoryAddress} {before : Memory}
    {capacity : UInt32} (h : w.Valid m a before capacity) (hne : w.lengthAt ≠ 0) :
    PeerSlot.ofOperands before w.address w.lengthAt =
      .ok (some ⟨w.address.toUInt32, w.lengthAt.toUInt32, capacity⟩) :=
  PeerSlot.ofOperands_eq_some_iff.mpr ⟨hne, rfl, rfl, h.room, h.buffer⟩

/-- The checks are enough for the request to be granted. -/
theorem granted_of_valid {s : Syscall} {v : Vector Int32 s.arity} {w : Receiving}
    {a : MemoryAddress} {before : Memory} {capacity : UInt32} (hw : s.receiving? v = some w)
    (hne : w.lengthAt ≠ 0) (h : w.Valid m a before capacity) : ∃ r, ofSyscall m s v = .ok r := by
  have hp := ofOperands_of_valid h hne
  unfold Syscall.receiving? at hw
  rw [Vector.toList_eq_map_finRange] at hw
  cases s
  case accept =>
    cases hw
    exact ⟨_, accept_eq_ok_iff.mpr ⟨a, before, _, h.memory, hp, rfl⟩⟩
  case recvfrom | nanosleep =>
    cases hw
    obtain ⟨hn, hc⟩ := h.data _ _ rfl
    have hlen := guestLength_eq_ok_iff.mpr (Int.toNat_of_nonneg hn).symm
    exact ⟨_, recvfrom_eq_ok_iff.mpr ⟨_, a, before, _, hlen, h.memory, hc, hp, rfl⟩⟩
  all_goals cases hw

variable {w : Receiving} {l : Landing} {slot : PeerSlot}

theorem Receives.fits (h : r.Receives m w l slot) : slot.FitsIn l.memory :=
  h.sound.peer slot h.peer

theorem Receives.valid (h : r.Receives m w l slot) :
    w.Valid m l.address l.memory slot.capacity := by
  refine ⟨h.sound.resolved, fun offset length hw => ⟨h.lengths offset length hw, ?_⟩, ?_, ?_⟩
  · exact h.sound.data ⟨offset.toUInt32, length.toInt.toNat⟩ (by rw [h.data, hw]; rfl)
  · rw [← h.lengthAt]
    exact h.fits.1
  · rw [← h.address]
    exact h.fits.2

theorem Receives.ne_exit (h : r.Receives m w l slot) (status : Int32) : r.call ≠ .exit status := by
  intro he
  have hb := h.buffer
  rw [he] at hb
  cases hb

theorem Lands.view_stored (h : r.Lands m w l) (reply : HostReply) :
    (l.stored reply).view = w.withData reply l.memory := by
  unfold Landing.stored Receiving.withData
  cases hw : w.data with
  | none => simp [h.data, hw]
  | some range =>
    obtain ⟨offset, length⟩ := range
    have hd : l.data = some ⟨offset.toUInt32, length.toInt.toNat⟩ := by rw [h.data, hw]; rfl
    have hc : l.memory.Contains offset.toUInt32 length.toInt.toNat := h.sound.data _ hd
    rw [hd]
    exact Memory.view_put (hc.mono (List.length_take_le _ _))

theorem Receives.outcome_eq (h : r.Receives m w l slot) {reply : HostReply}
    (hv : reply.value ≠ -1) : r.call.outcome reply = .ok reply.value := by
  rw [h.outcome, HostReply.outcome, if_neg hv]

theorem Receives.result_eq (h : r.Receives m w l slot) {reply : HostReply}
    (hv : reply.value ≠ -1) : r.call.result reply = narrow reply.value := by
  rw [HostCall.result, h.outcome_eq hv]

theorem Lands.storeAfter_eq (h : r.Lands m w l) (store : Store) (reply : HostReply) :
    r.storeAfter store reply = store.replace l.address (r.settled l reply) := by
  rw [storeAfter, h.landing]

theorem Receives.settled_eq (h : r.Receives m w l slot) {reply : HostReply}
    (hv : reply.value ≠ -1) :
    r.settled l reply = slot.written (l.stored reply) (slot.filled reply) := by
  rw [settled, h.outcome_eq hv, h.peer]

theorem Receives.copiedBack (h : r.Receives m w l slot) {reply : HostReply}
    (hv : reply.value ≠ -1) :
    w.CopiedBack slot.capacity reply l.memory (r.settled l reply) := by
  have hb : (l.stored reply).Contains slot.offset slot.capacity.toNat :=
    Landing.contains_stored.mpr h.fits.2
  have hl : (l.stored reply).Contains slot.lengthAt 4 :=
    Landing.contains_stored.mpr h.fits.contains_length
  rw [h.settled_eq hv]
  constructor
  · rw [PeerSlot.view_written hb hl, PeerSlot.bytes_filled, PeerSlot.length_filled,
      h.view_stored, h.address, h.lengthAt]
  · rw [PeerSlot.size_written, Landing.size_stored]
  · rw [PeerSlot.pages_written, Landing.pages_stored]
  · rw [PeerSlot.maximum_written, Landing.maximum_stored]
  · rw [← h.lengthAt, PeerSlot.readWord_written hl, PeerSlot.length_filled]

end Request

/-- The host was offered an empty buffer cut to the room the guest had, and unless the call failed
the guest's memory ends as `CopiedBack` says, and nothing but a value too wide is still a fault. -/
structure Outcome.CopiesBack (o : Outcome) (m : Machine) (host : Host) (w : Receiving)
    (a : MemoryAddress) (before : Memory) (capacity : UInt32) (call : HostCall)
    (buffer : SocketAddress) : Prop where
  valid : w.Valid m a before capacity
  calls : o.calls = [call]
  offered : call.peer? = some buffer
  zeros : buffer.storage.toList = List.replicate 128 0
  length : buffer.length.toNat = min capacity.toNat 128
  final : (host.answer call).value ≠ -1 → ∃ after,
    o.machine.guestMemory .writing = .ok (a, after) ∧ o.machine.store = m.store.replace a after ∧
      w.CopiedBack capacity (host.answer call) before after
  ending : (host.answer call).value ≠ -1 → o.ending = .returned ∨
    ¬Narrow (host.answer call).value ∧ ∃ t, o.ending = .trapped t ∧
      t.fault = .syscallFailed (.tooWide (host.answer call).value)

theorem Store.memory_replace {s : Store} {a : MemoryAddress} {access : Access} {m n : Memory}
    (h : s.memory a access = .ok m) : (s.replace a n).memory a access = .ok n := by
  obtain ⟨c, hc, hadm, -⟩ := memory_eq_ok_iff.mp h
  refine memory_eq_ok_iff.mpr ⟨{ c with memory := n }, ?_, hadm, rfl⟩
  rw [getElem?_replace, if_pos rfl, hc]
  rfl

namespace Machine

theorem guestMemory_replace {m n : Machine} {access : Access} {a : MemoryAddress}
    {before after : Memory} (h : m.guestMemory access = .ok (a, before))
    (hf : n.stack.frames = m.stack.frames) (hs : n.store = m.store.replace a after) :
    n.guestMemory access = .ok (a, after) := by
  obtain ⟨ha, hm⟩ := guestMemory_eq_ok_iff.mp h
  have hn : n.ownAddress? = some a := by rw [← ha, ownAddress?, hf, ownAddress?]
  refine guestMemory_eq_ok_iff.mpr ⟨hn, ?_⟩
  rw [hs]
  exact Store.memory_replace hm

variable {m : Machine} {host : Host} {config : Config} {s : Syscall} {v : Vector Int32 s.arity}
  {w : Receiving}

theorem calls_ne_nil_of_valid {a : MemoryAddress} {before : Memory} {capacity : UInt32}
    (permitted : config.permits s = true) (operands : m.stack.peekI32 s.arity = .ok v)
    (receives : s.receiving? v = some w) (wanted : w.lengthAt ≠ 0)
    (valid : w.Valid m a before capacity) : (m.dispatch host config s.number).calls ≠ [] := by
  obtain ⟨r, hr⟩ := Request.granted_of_valid receives wanted valid
  have hp : m.Passes config s v r := ⟨permitted, operands, hr⟩
  rw [hp.dispatch_eq, perform_calls]
  simp

theorem Passes.copiesBack {r : Request} {l : Landing} {slot : PeerSlot}
    (hp : m.Passes config s v r) (hr : r.Receives m w l slot) (host : Host) :
    (m.dispatch host config s.number).CopiesBack m host w l.address l.memory slot.capacity r.call
      slot.buffer := by
  have hd := hp.dispatch_eq host
  refine ⟨hr.valid, ?_, hr.buffer, slot.buffer_eq.1, slot.buffer_eq.2, fun hv => ?_, fun hv => ?_⟩
  · rw [hd, perform_calls]
  · have hs : (m.dispatch host config s.number).machine.store =
        m.store.replace l.address (r.settled l (host.answer r.call)) := by
      rw [hd, perform_store hp.faithful.landing hr.ne_exit, hr.storeAfter_eq]
      rfl
    have hf : (m.dispatch host config s.number).machine.stack.frames = m.stack.frames := by
      rw [hd, perform_frames]
      rfl
    exact ⟨_, guestMemory_replace hr.sound.resolved hf hs, hs, hr.copiedBack hv⟩
  · rw [hd, perform_eq hp.faithful.landing hr.ne_exit, hr.result_eq hv]
    cases hn : narrow (host.answer r.call).value with
    | ok n => exact .inl rfl
    | error f =>
      obtain ⟨hw, rfl⟩ := narrow_eq_error_iff.mp hn
      exact .inr ⟨hw, _, rfl, rfl⟩

/-- A call that asks for the peer's address is made exactly if it passes the checks. Unless it then
fails, the guest's memory is exactly what it was with the data, the address and its length laid
over it. -/
theorem dispatch_copies_back (operands : m.stack.peekI32 s.arity = .ok v)
    (receives : s.receiving? v = some w) (wanted : w.lengthAt ≠ 0) :
    ((m.dispatch host config s.number).calls ≠ [] ↔
      config.permits s = true ∧ ∃ a before capacity, w.Valid m a before capacity) ∧
    ((m.dispatch host config s.number).calls ≠ [] → ∃ a before capacity call buffer,
      (m.dispatch host config s.number).CopiesBack m host w a before capacity call buffer) := by
  have hcopies (reached : (m.dispatch host config s.number).calls ≠ []) :
      config.permits s = true ∧ ∃ a before capacity call buffer,
        (m.dispatch host config s.number).CopiesBack m host w a before capacity call buffer := by
    obtain ⟨v', r, hp⟩ := passes_of_calls reached
    obtain rfl : v = v' := Except.ok.inj (operands.symm.trans hp.operands)
    obtain ⟨l, slot, hr⟩ := Request.ofSyscall_receives receives wanted hp.granted
    exact ⟨hp.permitted, _, _, _, _, _, hp.copiesBack hr host⟩
  refine ⟨⟨fun reached => ?_, ?_⟩, fun reached => (hcopies reached).2⟩
  · obtain ⟨hc, a, before, capacity, call, buffer, h⟩ := hcopies reached
    exact ⟨hc, a, before, capacity, h.valid⟩
  · rintro ⟨permitted, a, before, capacity, valid⟩
    exact calls_ne_nil_of_valid permitted operands receives wanted valid

end Machine

/-- A page of zeros but for the number 16 at offset 8. -/
def Memory.sixteenAtEight : Memory :=
  (Memory.blank 1 (by decide)).put 8 (Bytes.ofWord 16)

/-- A receive of four bytes at offset 6 with a peer's address at 4 and its length at 8. -/
def Machine.overlapping : Machine where
  store := ⟨#[{ memory := .sixteenAtEight }]⟩
  stack :=
    (({} : Stack).pushFrame ⟨⟨"guest", [⟨0⟩]⟩, 0, [], 0⟩).pushAll
      [.i32 3, .i32 6, .i32 4, .i32 0, .i32 4, .i32 8]

/-- A host with four bytes of data, whose peer has an address longer than any buffer. -/
def Host.longWinded : Host := .replying ⟨4, 0, [1, 2, 3, 4], List.replicate 200 9, 200⟩

theorem Memory.pages_sixteenAtEight : sixteenAtEight.pages = 1 := pages_put ..

theorem Memory.maximum_sixteenAtEight : sixteenAtEight.maximum = none := maximum_put ..

theorem Memory.contains_sixteenAtEight {offset : UInt32} {length : Nat}
    (h : offset.toNat + length ≤ 65536) : sixteenAtEight.Contains offset length := by
  have hsize : sixteenAtEight.size = 65536 := by
    rw [sixteenAtEight, size_put, size_blank]
    rfl
  rw [Contains, hsize]
  exact h

theorem Memory.readWord_sixteenAtEight : sixteenAtEight.readWord 8 = .ok 16 := by
  have h : (8 : UInt32).toNat + 4 ≤ 65536 := by simp
  exact readWord_put (contains_put.mp (contains_sixteenAtEight h)) 16

namespace Machine

theorem peekI32_overlapping :
    overlapping.stack.peekI32 Syscall.recvfrom.arity = .ok #v[3, 6, 4, 0, 4, 8] := rfl

theorem overlapping_valid :
    Receiving.Valid ⟨some (6, 4), 4, 8⟩ overlapping ⟨0⟩ .sixteenAtEight 16 := by
  refine ⟨rfl, ?_, Memory.readWord_sixteenAtEight, Memory.contains_sixteenAtEight (by decide)⟩
  rintro _ _ ⟨⟩
  exact ⟨by decide, Memory.contains_sixteenAtEight (by decide)⟩

theorem overlapping_calls (host : Host) :
    (overlapping.dispatch host .permissive Syscall.recvfrom.number).calls ≠ [] :=
  calls_ne_nil_of_valid (by decide) peekI32_overlapping rfl (by decide) overlapping_valid

theorem overlapping_copied_back :
    overlapping.stack.peekI32 Syscall.recvfrom.arity = .ok #v[3, 6, 4, 0, 4, 8] ∧
    Syscall.recvfrom.receiving? #v[3, 6, 4, 0, 4, 8] = some ⟨some (6, 4), 4, 8⟩ ∧
    (8 : Int32) ≠ 0 ∧
    (∀ call, (Host.longWinded.answer call).value ≠ -1) ∧
    (overlapping.dispatch .longWinded .permissive Syscall.recvfrom.number).calls ≠ [] ∧
    ∃ a before capacity call buffer,
      (overlapping.dispatch .longWinded .permissive Syscall.recvfrom.number).CopiesBack overlapping
        .longWinded ⟨some (6, 4), 4, 8⟩ a before capacity call buffer := by
  have hvalue (call : HostCall) : (Host.longWinded.answer call).value ≠ -1 := by
    change call.width.wrap 4 ≠ -1
    cases call.width <;> decide
  have hreached := overlapping_calls .longWinded
  exact ⟨rfl, rfl, by decide, hvalue, hreached,
    (dispatch_copies_back peekI32_overlapping rfl (by decide)).2 hreached⟩

end Machine

end GuestGate
