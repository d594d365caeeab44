import GuestGate.Proofs.CopyBack
import GuestGate.Proofs.Trichotomy

/-!
# Receives that trap

What a trap leaves in the memory of a syscall that receives. A call that fails leaves what the host
stored as data and no address. A call whose value turns out too wide for an operand has put the
peer's address and its length down by then.
-/

namespace GuestGate

/-- A syscall that was called and trapped: its own memory is as it was but for the data, unless the
value was too wide and the peer's address was asked for. -/
structure Outcome.TrappedReceive (o : Outcome) (m : Machine) (host : Host) (s : Syscall) (t : Trap)
    (w : Receiving) (a : MemoryAddress) (before after : Memory) (call : HostCall) : Prop where
  calls : o.calls = [call]
  resolved : m.guestMemory .writing = .ok (a, before)
  store : o.machine.store = m.store.replace a after
  kept : (∀ value, t.fault ≠ .syscallFailed (.tooWide value)) ∨ w.lengthAt = 0 →
    after.view = w.withData (host.answer call) before
  written : ∀ value, t.fault = .syscallFailed (.tooWide value) → w.lengthAt ≠ 0 →
    s ≠ .accept ∧ value = (host.answer call).value ∧ ¬Narrow value ∧
      ∃ capacity, w.CopiedBack capacity (host.answer call) before after

theorem Syscall.exists_receiving {s : Syscall} (h : s ∈ [.accept, .recvfrom, .nanosleep])
    (v : Vector Int32 s.arity) : ∃ w, s.receiving? v = some w := by
  cases s
  case accept =>
    obtain ⟨fd, address, lengthAt, rfl⟩ := Vector.exists_three v
    exact ⟨_, rfl⟩
  case recvfrom | nanosleep =>
    obtain ⟨fd, offset, length, flags, address, lengthAt, rfl⟩ := Vector.exists_six v
    exact ⟨_, rfl⟩
  all_goals simp at h

theorem HostCall.width_eq (call : HostCall) :
    call.width = if call.service ∈ [.sendto, .recvfrom] then .bits64 else .bits32 := by
  cases call <;> rfl

/-- A host's value that has 32 bits is never too wide. -/
theorem Host.narrow_of_width {host : Host} {call : HostCall} (h : call.width = .bits32) :
    Narrow (host.answer call).value := by
  have hl := host.le_value call
  have hu := host.value_lt call
  rw [h] at hl hu
  exact ⟨hl, hu⟩

namespace Request

variable {m : Machine} {r : Request} {w : Receiving} {l : Landing} {reply : HostReply}

/-- A failed call, and one that asks for no address, store data and nothing else. -/
theorem Lands.view_settled (h : r.Lands m w l) (hk : reply.value = -1 ∨ w.lengthAt = 0) :
    (r.settled l reply).view = w.withData reply l.memory := by
  have hstored : r.settled l reply = l.stored reply := by
    rw [settled, h.outcome]
    rcases hk with hv | hz
    · rw [HostReply.outcome, if_pos hv]
    · rw [h.unasked.mpr hz]
      cases reply.outcome <;> rfl
  rw [hstored, h.view_stored]

/-- A call that gives no result failed or gave a value too wide. -/
theorem Lands.result_error (h : r.Lands m w l) {f : Fault} (hf : r.call.result reply = .error f) :
    (reply.value = -1 ∧ f = .syscallFailed (.os reply.errno)) ∨
      (reply.value ≠ -1 ∧ ¬Narrow reply.value ∧ f = .syscallFailed (.tooWide reply.value)) := by
  rw [HostCall.result, h.outcome, HostReply.outcome] at hf
  by_cases hv : reply.value = -1
  · rw [if_pos hv] at hf
    cases hf
    exact .inl ⟨hv, rfl⟩
  · rw [if_neg hv] at hf
    exact .inr ⟨hv, narrow_eq_error_iff.mp hf⟩

end Request

namespace Machine

variable {m : Machine} {host : Host} {config : Config} {s : Syscall} {t : Trap}

theorem Passes.trappedReceive {v : Vector Int32 s.arity} {r : Request} {w : Receiving}
    {l : Landing} (hp : m.Passes config s v r) (hl : r.Lands m w l)
    (hx : ∀ status, r.call ≠ .exit status)
    (trapped : (m.dispatch host config s.number).ending = .trapped t) :
    (m.dispatch host config s.number).TrappedReceive m host s t w l.address l.memory
      (r.settled l (host.answer r.call)) r.call := by
  have hd := hp.dispatch_eq host
  have hstore : (m.dispatch host config s.number).machine.store =
      m.store.replace l.address (r.settled l (host.answer r.call)) := by
    rw [hd, perform_store hp.faithful.landing hx, hl.storeAfter_eq]
    rfl
  rw [hd, perform_eq hp.faithful.landing hx] at trapped
  cases hres : r.call.result (host.answer r.call) with
  | ok n =>
    rw [hres] at trapped
    cases trapped
  | error f =>
    rw [hres] at trapped
    cases trapped
    refine ⟨by rw [hd, perform_calls], hl.sound.resolved, hstore, fun hk => ?_, ?_⟩
    · apply hl.view_settled
      rcases hl.result_error hres with ⟨hv, -⟩ | ⟨-, -, hf⟩
      · exact .inl hv
      · exact hk.imp_left fun hnone => absurd hf (hnone _)
    · intro value hf hne
      rcases hl.result_error hres with ⟨-, hos⟩ | ⟨hv, hwide, hf'⟩
      · cases hf.symm.trans hos
      · cases hf.symm.trans hf'
        obtain ⟨slot, hs⟩ := Option.ne_none_iff_exists'.mp (mt hl.unasked.mp hne)
        refine ⟨?_, rfl, hwide, slot.capacity, (hl.receives hs).copiedBack hv⟩
        rintro rfl
        have hservice : r.call.service = .accept := hp.faithful.service
        have hwidth : r.call.width = .bits32 := by
          rw [HostCall.width_eq, hservice]
          rfl
        exact hwide (Host.narrow_of_width hwidth)

/-- A call that receives and whose host gives more than an operand holds ends in a trap. -/
theorem Passes.trapped_of_wide {v : Vector Int32 s.arity} {r : Request} {w : Receiving}
    {l : Landing} {slot : PeerSlot} (hp : m.Passes config s v r) (hr : r.Receives m w l slot)
    (wide : ¬Narrow (host.answer r.call).value) :
    ∃ t, (m.dispatch host config s.number).ending = .trapped t := by
  have hv : (host.answer r.call).value ≠ -1 := by
    intro he
    rw [he] at wide
    exact wide ⟨by decide, by decide⟩
  have hn := narrow_eq_error_iff.mpr ⟨wide, rfl⟩
  rw [hp.dispatch_eq host, perform_eq hp.faithful.landing hr.ne_exit, hr.result_eq hv, hn]
  exact ⟨_, rfl⟩

/-- A trap of a syscall that receives has written no address, unless the host's value was too wide
for an operand: then it has written the address and its length. -/
theorem dispatch_trapped_receive (receives : s ∈ [.accept, .recvfrom, .nanosleep])
    (trapped : (m.dispatch host config s.number).ending = .trapped t) :
    ((m.dispatch host config s.number).calls = [] ∧
      (m.dispatch host config s.number).machine = m) ∨
    ∃ v w a before after call, m.stack.peekI32 s.arity = .ok v ∧ s.receiving? v = some w ∧
      (m.dispatch host config s.number).TrappedReceive m host s t w a before after call := by
  rcases m.refuses_or_passes config s with ⟨f, log, hr⟩ | ⟨v, r, hp⟩
  · rw [hr.dispatch_eq]
    exact .inl ⟨rfl, rfl⟩
  · obtain ⟨w, hw⟩ := Syscall.exists_receiving receives v
    obtain ⟨l, hl⟩ := Request.ofSyscall_lands hw hp.granted
    have hx (status : Int32) : r.call ≠ .exit status := by
      intro he
      rw [hp.eq_exit he] at receives
      simp at receives
    exact .inr ⟨v, w, _, _, _, _, hp.operands, hw, hp.trappedReceive hl hx trapped⟩

end Machine

/-- A host that claims to have received more than an operand can say. -/
def Host.boastful : Host := .replying ⟨2147483648, 0, [], [9], 1⟩

namespace Machine

theorem boastful_value {call : HostCall} (h : call.service = .recvfrom) :
    (Host.boastful.answer call).value = 2147483648 := by
  change call.width.wrap 2147483648 = 2147483648
  rw [HostCall.width_eq, h]
  rfl

theorem overlapping_boasted : ∃ t call buffer,
    (overlapping.dispatch .boastful .permissive Syscall.recvfrom.number).ending = .trapped t ∧
    (Host.boastful.answer call).value = 2147483648 ∧
    (overlapping.dispatch .boastful .permissive Syscall.recvfrom.number).CopiesBack overlapping
      .boastful ⟨some (6, 4), 4, 8⟩ ⟨0⟩ .sixteenAtEight 16 call buffer := by
  obtain ⟨v, r, hp⟩ := passes_of_calls (overlapping_calls .boastful)
  obtain rfl := Except.ok.inj (peekI32_overlapping.symm.trans hp.operands)
  obtain ⟨l, slot, hr⟩ := Request.ofSyscall_receives rfl (by decide) hp.granted
  have hland := hr.valid.memory.symm.trans overlapping_valid.memory
  obtain ⟨ha, hm⟩ := Prod.mk.inj (Except.ok.inj hland)
  have hroom := hr.valid.room
  rw [hm] at hroom
  have hcapacity := Except.ok.inj (hroom.symm.trans Memory.readWord_sixteenAtEight)
  have h := hp.copiesBack hr .boastful
  rw [ha, hm, hcapacity] at h
  have hv := boastful_value hp.faithful.service
  have hwide : ¬Narrow (Host.boastful.answer r.call).value := by
    rw [hv]
    exact fun hn => absurd hn.2 (by decide)
  obtain ⟨t, ht⟩ := hp.trapped_of_wide hr hwide
  exact ⟨t, _, _, ht, hv, h⟩

theorem boastful_trapped_receive : ∃ t,
    Syscall.recvfrom ∈ [Syscall.accept, .recvfrom, .nanosleep] ∧
    (overlapping.dispatch .boastful .permissive Syscall.recvfrom.number).ending = .trapped t ∧
    ∃ v w a before after call, overlapping.stack.peekI32 Syscall.recvfrom.arity = .ok v ∧
      Syscall.recvfrom.receiving? v = some w ∧
      (overlapping.dispatch .boastful .permissive Syscall.recvfrom.number).TrappedReceive
        overlapping .boastful .recvfrom t w a before after call := by
  obtain ⟨t, -, -, ht, -⟩ := overlapping_boasted
  have hcalls := overlapping_calls .boastful
  have h := dispatch_trapped_receive (by decide) ht
  exact ⟨t, by decide, ht, h.resolve_left fun hn => hcalls hn.1⟩

/-- A trapped receive whose host stored no data has changed the length that the guest put down. -/
theorem boastful_overwrites_length : ∃ t before after,
    (overlapping.dispatch .boastful .permissive Syscall.recvfrom.number).ending = .trapped t ∧
    (∀ call, (Host.boastful.answer call).data = []) ∧
    overlapping.guestMemory .writing = .ok (⟨0⟩, before) ∧
    (overlapping.dispatch .boastful .permissive Syscall.recvfrom.number).machine.guestMemory
      .writing = .ok (⟨0⟩, after) ∧
    before.readWord 8 = .ok 16 ∧ after.readWord 8 = .ok 1 := by
  obtain ⟨t, call, buffer, ht, hv, h⟩ := overlapping_boasted
  obtain ⟨after, hm, -, hc⟩ := h.final (by rw [hv]; decide)
  exact ⟨t, _, after, ht, fun _ => rfl, h.valid.memory, hm, h.valid.room, hc.length⟩

end Machine

end GuestGate
