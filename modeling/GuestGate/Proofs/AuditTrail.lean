import GuestGate.Session
import GuestGate.Proofs.CopyIn
import GuestGate.Proofs.Discretion
import GuestGate.Proofs.LogText
import GuestGate.Proofs.TrappedReceive

/-!
# The log as an audit trail

The records of a dispatch come in the order of its checks, one at most of each kind, and each is
there exactly if what it tells has happened: the number that was dispatched, the refusal of the
configuration, the operands that passed the checks, the receive in place of a sleep, the failure of
the host call, and the address that the host reported. All this can be read in their texts.
-/

namespace GuestGate

namespace LogEvent

/-- The kinds of records in the order in which a dispatch leaves them: the entry, the refusal, the
operands, the warning, the call that is about to be made, and the answer. -/
def stage : LogEvent → Nat
  | .invoked .. | .unknownNumber _ => 0
  | .refused _ => 1
  | .operands .. => 2
  | .receivesInsteadOfSleeping => 3
  | .exiting _ | .executing .. | .connecting .. | .binding .. | .sending .. => 4
  | .hostFailed _ | .accepted .. | .received .. => 5

/-- The address of a peer, if a record shows one. -/
def peer? : LogEvent → Option ShownAddress
  | .accepted _ _ peer | .received _ _ peer => some peer
  | _ => none

/-- The level that a record has by its kind: warnings are the refusal and the receive in place of a
sleep and nothing else, the operands and a peer's address are for the trace. -/
structure Levelled (e : LogEvent) : Prop where
  entry : e.stage = 0 → e.level = .debug
  warns : e.level = .warn ↔ e.stage = 1 ∨ e.stage = 3
  operands : e.stage = 2 → e.level = .trace
  answer : e.stage = 5 → e.level = if e.peer?.isSome then .trace else .debug

theorem levelled (e : LogEvent) : e.Levelled := by
  constructor <;> cases e <;> simp [level, stage, peer?]

theorem trace_shows (e : LogEvent) : LogLevel.trace.shows e.level = true := by
  cases e <;> rfl

theorem stage_of_peer? {e : LogEvent} {peer : ShownAddress} (h : e.peer? = some peer) :
    e.stage = 5 := by
  cases e <;> simp_all [peer?, stage]

/-! What each kind of record tells is told by no other kind. -/

section

variable {e : LogEvent} {s : Syscall}

theorem told?_eq_refused_iff : e.told? = some (.refused s) ↔ e = .refused s := by
  cases e <;> simp [told?]

theorem told?_eq_operands_iff {ns : List Int} :
    e.told? = some (.operands s ns) ↔
      ∃ values, e = .operands s values ∧ values.map Int32.toInt = ns := by
  cases e <;> simp [told?, eq_comm]

theorem told?_eq_receives_iff :
    e.told? = some .receivesInsteadOfSleeping ↔ e = .receivesInsteadOfSleeping := by
  cases e <;> simp [told?]

theorem told?_eq_hostFailed_iff {reason : String} {code : Int} :
    e.told? = some (.hostFailed reason code) ↔ ∃ errno, e = .hostFailed errno ∧
      (HostFailure.os errno).message = reason ∧ errno.toInt = code := by
  cases e <;> simp [told?]

theorem told?_eq_peer_iff {length : Nat} {bytes : List UInt8} :
    (∃ s fd value, e.told? = some (.peer s fd value length bytes)) ↔
      ∃ peer, e.peer? = some peer ∧ peer.length.toNat = length ∧ peer.bytes = bytes := by
  cases e <;> simp [told?, peer?]

end

theorem stage_of_mem {log : List LogEvent} {stages : List Nat} {e : LogEvent}
    (h : List.Sublist (log.map stage) stages) (he : e ∈ log) : e.stage ∈ stages :=
  h.subset (List.mem_map_of_mem he)

end LogEvent

/-- The record that every dispatch begins with. -/
def Machine.entry (m : Machine) (number : UInt32) : LogEvent :=
  match Syscall.ofNumber? number with
  | some s => .invoked s m.stack.available
  | none => .unknownNumber number

/-- What an auditor reads in the texts of the records. -/
def Outcome.trail (o : Outcome) : List AuditEntry :=
  o.log.filterMap fun e => AuditEntry.read? e.message

/-- What an auditor reads first: the number, or the name with the arity and the number of operands
that there are. -/
def Machine.firstEntry (m : Machine) (number : UInt32) : AuditEntry :=
  match Syscall.ofNumber? number with
  | some s => .invoked s s.arity m.stack.available
  | none => .unknown number.toNat

/-- The checks that come before a syscall looks at memory: its number is known, the configuration
permits it, and the current frame has enough operands, with integers on top. The vector has them in
the order in which they were pushed. -/
structure Machine.Vetted (m : Machine) (config : Config) (number : UInt32) (s : Syscall)
    (v : Vector Int32 s.arity) : Prop where
  number_eq : s.number = number
  permitted : config.permits s = true
  enough : s.arity ≤ m.stack.available
  operands : ∃ below, m.stack.operands = Stack.pushed v ++ below

/-- The records of the checks: what was dispatched comes first, a refusal of the configuration last,
and the operands are there if the checks have passed. -/
structure Outcome.RecordsChecks (o : Outcome) (m : Machine) (config : Config) (number : UInt32) :
    Prop where
  entry : ∃ rest, o.log = m.entry number :: rest ∧ ∀ e ∈ rest.head?, e.level ≠ .debug
  refused : ∀ s, .refused s ∈ o.log ↔ ∃ t, o.ending = .trapped t ∧ t.fault = .capabilityDenied s
  refused_last : ∀ s, .refused s ∈ o.log → o.log.getLast? = some (.refused s)
  operands : ∀ s ns, .operands s ns ∈ o.log ↔ ∃ v, m.Vetted config number s v ∧ ns = v.toList
  warned : .receivesInsteadOfSleeping ∈ o.log ↔ ∃ v, m.Vetted config number .nanosleep v

/-- The records of the host's answer: a failure with its reason, for which the dispatch traps, and
the address of a peer that was asked for, with the length that the host reported. -/
structure Outcome.RecordsAnswer (o : Outcome) (m : Machine) (host : Host) (config : Config)
    (number : UInt32) : Prop where
  failed : ∀ errno, .hostFailed errno ∈ o.log ↔
    ∃ call ∈ o.calls, call ≠ .getpid ∧ (∀ status, call ≠ .exit status) ∧
      (host.answer call).value = -1 ∧ (host.answer call).errno = errno
  failed_traps : ∀ errno, .hostFailed errno ∈ o.log → ∃ t, o.ending = .trapped t ∧
    t.fault = .syscallFailed (.os errno) ∧
    (LogEvent.hostFailed errno).message = "host call failed: " ++ t.fault.message
  peer : ∀ shown, (∃ e ∈ o.log, e.peer? = some shown) ↔
    ∃ s v w call, m.Vetted config number s v ∧ s.receiving? v = some w ∧ w.lengthAt ≠ 0 ∧
      call ∈ o.calls ∧ (host.answer call).value ≠ -1 ∧
      shown.length = (host.answer call).addressLength ∧
      shown.bytes = (host.answer call).addressBuffer.take (min shown.length.toNat 128)

/-- An auditor reads the same in the texts. Each record reads as what it holds; the announcement of
a call reads as nothing. The first tells the number, or the name, the arity and how many operands
there are; the others tell the operands in their order, why the call failed and with what error
number, the length that the host reported for a peer's address, and each byte of the address. -/
structure Outcome.Legible (o : Outcome) (m : Machine) (host : Host) (config : Config)
    (number : UInt32) : Prop where
  reads : ∀ e ∈ o.log, AuditEntry.read? e.message = e.told?
  reads_entry : ∃ rest, o.trail = m.firstEntry number :: rest
  reads_refused : ∀ s, .refused s ∈ o.trail ↔
    ∃ t, o.ending = .trapped t ∧ t.fault = .capabilityDenied s
  reads_operands : ∀ s ns, .operands s ns ∈ o.trail ↔
    ∃ v, m.Vetted config number s v ∧ v.toList.map Int32.toInt = ns
  reads_warned : .receivesInsteadOfSleeping ∈ o.trail ↔ ∃ v, m.Vetted config number .nanosleep v
  reads_failed : ∀ reason code, .hostFailed reason code ∈ o.trail ↔
    ∃ call ∈ o.calls, call ≠ .getpid ∧ (∀ status, call ≠ .exit status) ∧
      (host.answer call).value = -1 ∧ (host.answer call).errno.toInt = code ∧
      (HostFailure.os (host.answer call).errno).message = reason
  reads_failure : ∀ reason code, .hostFailed reason code ∈ o.trail → ∃ t failure,
    o.ending = .trapped t ∧ t.fault = .syscallFailed failure ∧ t.fault.message = reason
  reads_peer : ∀ length bytes, (∃ s fd value, .peer s fd value length bytes ∈ o.trail) ↔
    ∃ s v w call, m.Vetted config number s v ∧ s.receiving? v = some w ∧ w.lengthAt ≠ 0 ∧
      call ∈ o.calls ∧ (host.answer call).value ≠ -1 ∧
      (host.answer call).addressLength.toNat = length ∧
      (host.answer call).addressBuffer.take (min length 128) = bytes

/-- A session that keeps a full log keeps all records of a dispatch, in the order of its checks and
no two of one kind, and they tell what it checked and what the host answered, in their texts too. -/
structure Outcome.Audited (o : Outcome) (m : Machine) (host : Host) (config : Config)
    (number : UInt32) : Prop
    extends o.RecordsChecks m config number, o.RecordsAnswer m host config number,
      o.Legible m host config number where
  kept : ∀ s : Session, s.logLevel = some .trace → s.records o.log = some o.log
  ordered : (o.log.map LogEvent.stage).Pairwise (· < ·)
  levels : ∀ e ∈ o.log, e.Levelled

namespace Outcome

variable {o : Outcome} {m : Machine} {host : Host} {config : Config} {number : UInt32}

theorem mem_trail {a : AuditEntry} : a ∈ o.trail ↔ ∃ e ∈ o.log, e.told? = some a := by
  simp only [trail, List.mem_filterMap, AuditEntry.read?_message]

theorem legible_of_records (hc : o.RecordsChecks m config number)
    (ha : o.RecordsAnswer m host config number) : o.Legible m host config number where
  reads e _ := AuditEntry.read?_message e
  reads_entry := by
    obtain ⟨rest, hlog, -⟩ := hc.entry
    have hfirst : (m.entry number).told? = some (m.firstEntry number) := by
      unfold Machine.entry Machine.firstEntry
      cases Syscall.ofNumber? number <;> rfl
    refine ⟨rest.filterMap fun e => AuditEntry.read? e.message, ?_⟩
    rw [trail, hlog, List.filterMap_cons_some]
    rw [AuditEntry.read?_message, hfirst]
  reads_refused s := by
    rw [← hc.refused s, mem_trail]
    simp only [LogEvent.told?_eq_refused_iff, exists_eq_right]
  reads_operands s ns := by
    simp only [mem_trail, LogEvent.told?_eq_operands_iff]
    constructor
    · rintro ⟨_, he, values, rfl, hns⟩
      obtain ⟨v, hv, rfl⟩ := (hc.operands s values).mp he
      exact ⟨v, hv, hns⟩
    · rintro ⟨v, hv, hns⟩
      exact ⟨_, (hc.operands s v.toList).mpr ⟨v, hv, rfl⟩, _, rfl, hns⟩
  reads_warned := by
    rw [← hc.warned, mem_trail]
    simp only [LogEvent.told?_eq_receives_iff, exists_eq_right]
  reads_failed reason code := by
    simp only [mem_trail, LogEvent.told?_eq_hostFailed_iff]
    constructor
    · rintro ⟨_, he, errno, rfl, hreason, hcode⟩
      obtain ⟨call, hcall, hpid, hexit, hvalue, rfl⟩ := (ha.failed errno).mp he
      exact ⟨call, hcall, hpid, hexit, hvalue, hcode, hreason⟩
    · rintro ⟨call, hcall, hpid, hexit, hvalue, hcode, hreason⟩
      exact ⟨_, (ha.failed _).mpr ⟨call, hcall, hpid, hexit, hvalue, rfl⟩, _, rfl, hreason, hcode⟩
  reads_failure reason code := by
    simp only [mem_trail, LogEvent.told?_eq_hostFailed_iff]
    rintro ⟨_, he, errno, rfl, hreason, -⟩
    obtain ⟨t, ht, hfault, -⟩ := ha.failed_traps errno he
    refine ⟨t, .os errno, ht, hfault, ?_⟩
    rw [hfault]
    exact hreason
  reads_peer length bytes := by
    have hpeer : (∃ s fd value, AuditEntry.peer s fd value length bytes ∈ o.trail) ↔
        ∃ e ∈ o.log, ∃ s fd value, e.told? = some (.peer s fd value length bytes) := by
      simp only [mem_trail]
      constructor
      · rintro ⟨s, fd, value, e, he, hentry⟩
        exact ⟨e, he, s, fd, value, hentry⟩
      · rintro ⟨e, he, s, fd, value, hentry⟩
        exact ⟨s, fd, value, e, he, hentry⟩
    simp only [hpeer, LogEvent.told?_eq_peer_iff]
    constructor
    · rintro ⟨e, he, shown, hs, rfl, rfl⟩
      obtain ⟨s, v, w, call, hv, hw, hz, hcall, hvalue, hlength, hbytes⟩ :=
        (ha.peer shown).mp ⟨e, he, hs⟩
      exact ⟨s, v, w, call, hv, hw, hz, hcall, hvalue, by rw [hlength], hbytes.symm⟩
    · rintro ⟨s, v, w, call, hv, hw, hz, hcall, hvalue, rfl, rfl⟩
      let reply := host.answer call
      let shown : ShownAddress := ⟨reply.addressLength,
        reply.addressBuffer.take (min reply.addressLength.toNat 128)⟩
      obtain ⟨e, he, hs⟩ := (ha.peer shown).mpr
        ⟨s, v, w, call, hv, hw, hz, hcall, hvalue, rfl, rfl⟩
      exact ⟨e, he, shown, hs, rfl, rfl⟩

end Outcome

theorem Session.records_trace {s : Session} (h : s.logLevel = some .trace) (log : List LogEvent) :
    s.records log = some log := by
  have hall : log.filter (fun e => LogLevel.trace.shows e.level) = log :=
    List.filter_eq_self.mpr fun e _ => e.trace_shows
  rw [records, h, Option.map_some, hall]

namespace HostCall

theorem announcement_stages (call : HostCall) :
    List.Sublist (call.announcement.map LogEvent.stage) [4] := by
  cases call <;> simp [announcement, LogEvent.stage]

/-- A call with a buffer for the peer's address leaves one record with what it came to hold. -/
theorem peerRecord_of_peer? {call : HostCall} {buffer : SocketAddress}
    (h : call.peer? = some buffer) (value : Int) (peer : SocketAddress) :
    ∃ e, call.peerRecord value peer = [e] ∧ e.peer? = some peer.shown := by
  cases call with
  | accept fd b => exact ⟨_, rfl, rfl⟩
  | recvfrom fd length flags b => exact ⟨_, rfl, rfl⟩
  | _ => cases h

theorem outcome_eq_error_iff {call : HostCall} {reply : HostReply} {failure : HostFailure} :
    call.outcome reply = .error failure ↔
      call ≠ .getpid ∧ reply.value = -1 ∧ failure = .os reply.errno := by
  have hreply : reply.outcome = .error failure ↔
      reply.value = -1 ∧ failure = .os reply.errno := by
    unfold HostReply.outcome
    split <;> simp_all [eq_comm]
  cases call <;> simp [outcome, hreply]

theorem not_failed_of_outcome {call : HostCall} {reply : HostReply} {value : Int}
    (h : call.outcome reply = .ok value) : call = .getpid ∨ reply.value ≠ -1 := by
  by_cases hcall : call = .getpid
  · exact .inl hcall
  · refine .inr fun hvalue => ?_
    rw [outcome_eq_error_iff.mpr ⟨hcall, hvalue, rfl⟩] at h
    cases h

end HostCall

theorem Syscall.mem_warnings {s : Syscall} {e : LogEvent} :
    e ∈ s.warnings ↔ s = .nanosleep ∧ e = .receivesInsteadOfSleeping := by
  cases s <;> simp [warnings]

theorem Syscall.warnings_stages (s : Syscall) :
    List.Sublist (s.warnings.map LogEvent.stage) [3] := by
  cases s <;> simp [warnings, LogEvent.stage]

theorem Syscall.preamble_stages (s : Syscall) (available : Nat) (v : Vector Int32 s.arity)
    (r : Request) :
    List.Sublist ((s.preamble available v r).map LogEvent.stage) [0, 2, 3, 4] := by
  rw [preamble, List.map_append]
  exact List.Sublist.append (s.warnings_stages.cons_cons 2 |>.cons_cons 0) r.call.announcement_stages

theorem Syscall.access?_of_not_receiving {s : Syscall}
    (h : s ∉ [.accept, .recvfrom, .nanosleep]) : s.access? ≠ some .writing := by
  revert h
  cases s <;> decide

/-- What a record shows of a filled buffer. -/
theorem PeerSlot.shown_filled (slot : PeerSlot) (reply : HostReply) :
    (slot.filled reply).shown = ⟨reply.addressLength,
      reply.addressBuffer.take (min reply.addressLength.toNat 128)⟩ := by
  rw [SocketAddress.shown, length_filled, bytes_filled_eq]

namespace Request

variable {m : Machine} {r : Request} {s : Syscall} {v : Vector Int32 s.arity} {w : Receiving}
  {l : Landing} {slot : PeerSlot} {reply : HostReply}

/-- A request either wants no address of a peer, or its operands ask for one. -/
theorem peer_cases (h : ofSyscall m s v = .ok r) :
    (r.landing.bind Landing.peer = none ∧ ∀ w, s.receiving? v = some w → w.lengthAt = 0) ∨
      ∃ w l slot, s.receiving? v = some w ∧ w.lengthAt ≠ 0 ∧ r.Receives m w l slot := by
  cases hw : s.receiving? v with
  | none =>
    have hs : s ∉ [.accept, .recvfrom, .nanosleep] := by
      intro hmem
      obtain ⟨w, hsome⟩ := Syscall.exists_receiving hmem v
      rw [hw] at hsome
      cases hsome
    rw [landing_eq_none h (Syscall.access?_of_not_receiving hs)]
    exact .inl ⟨rfl, nofun⟩
  | some w =>
    by_cases hz : w.lengthAt = 0
    · obtain ⟨l, hl⟩ := ofSyscall_lands hw h
      refine .inl ⟨?_, ?_⟩
      · rw [hl.landing, Option.bind_some, hl.unasked.mpr hz]
      · rintro _ ⟨⟩
        exact hz
    · obtain ⟨l, slot, hr⟩ := ofSyscall_receives hw hz h
      exact .inr ⟨w, l, slot, rfl, hz, hr⟩

/-- An answer leaves one record at most: of the failure, or of the peer's address if the call was to
ask for it and did not fail. -/
theorem records_cases (h : ofSyscall m s v = .ok r) (reply : HostReply) :
    (r.call ≠ .getpid ∧ reply.value = -1 ∧ r.records reply = [.hostFailed reply.errno]) ∨
    ((r.call = .getpid ∨ reply.value ≠ -1) ∧ (∀ w, s.receiving? v = some w → w.lengthAt = 0) ∧
      r.records reply = []) ∨
    (reply.value ≠ -1 ∧ ∃ w e, s.receiving? v = some w ∧ w.lengthAt ≠ 0 ∧ r.records reply = [e] ∧
      e.peer? = some ⟨reply.addressLength,
        reply.addressBuffer.take (min reply.addressLength.toNat 128)⟩) := by
  cases ho : r.call.outcome reply with
  | error failure =>
    obtain ⟨hcall, hvalue, -⟩ := HostCall.outcome_eq_error_iff.mp ho
    exact .inl ⟨hcall, hvalue, by rw [records, ho]⟩
  | ok value =>
    rw [records, ho]
    rcases peer_cases h with ⟨hnone, hunasked⟩ | ⟨w, l, slot, hw, hz, hr⟩
    · have hvalue := HostCall.not_failed_of_outcome ho
      exact .inr (.inl ⟨hvalue, hunasked, by rw [hnone]⟩)
    · have hvalue : reply.value ≠ -1 := by
        intro hv
        rw [hr.outcome, HostReply.outcome, if_pos hv] at ho
        cases ho
      rw [hr.landing, Option.bind_some, hr.peer, ← slot.shown_filled]
      obtain ⟨e, he, hshown⟩ := HostCall.peerRecord_of_peer? hr.buffer value (slot.filled reply)
      exact .inr (.inr ⟨hvalue, w, e, hw, hz, he, hshown⟩)

theorem records_stages (h : ofSyscall m s v = .ok r) (reply : HostReply) :
    List.Sublist ((r.records reply).map LogEvent.stage) [5] := by
  rcases records_cases h reply with ⟨-, -, hr⟩ | ⟨-, -, hr⟩ | ⟨-, w, e, -, -, hr, hshown⟩
  · simp [hr, LogEvent.stage]
  · simp [hr]
  · simp [hr, LogEvent.stage_of_peer? hshown]

theorem hostFailed_mem_records (h : ofSyscall m s v = .ok r) {errno : Int32} :
    .hostFailed errno ∈ r.records reply ↔
      r.call ≠ .getpid ∧ reply.value = -1 ∧ reply.errno = errno := by
  rcases records_cases h reply with
    ⟨hcall, hvalue, hr⟩ | ⟨hvalue, -, hr⟩ | ⟨hvalue, w, e, -, -, hr, hshown⟩
  · simp [hr, hcall, hvalue, eq_comm]
  · simp only [hr, List.not_mem_nil, false_iff]
    rintro ⟨hcall, hv, -⟩
    exact hvalue.elim hcall (absurd hv)
  · have hne : .hostFailed errno ≠ e := by
      rintro rfl
      cases hshown
    simp [hr, hne, hvalue]

theorem peer_mem_records (h : ofSyscall m s v = .ok r) {shown : ShownAddress} :
    (∃ e ∈ r.records reply, e.peer? = some shown) ↔
      ∃ w, s.receiving? v = some w ∧ w.lengthAt ≠ 0 ∧ reply.value ≠ -1 ∧
        shown.length = reply.addressLength ∧
        shown.bytes = reply.addressBuffer.take (min shown.length.toNat 128) := by
  rcases records_cases h reply with
    ⟨-, hvalue, hr⟩ | ⟨-, hunasked, hr⟩ | ⟨hvalue, w, e, hw, hz, hr, hshown⟩
  · simp [hr, hvalue, LogEvent.peer?]
  · simp only [hr, List.not_mem_nil, false_and, exists_false, false_iff]
    rintro ⟨w, hw, hz, -⟩
    exact hz (hunasked w hw)
  · obtain ⟨length, bytes⟩ := shown
    simp only [hr, hshown, hw, hz, hvalue, List.mem_singleton, exists_eq_left, Option.some.injEq,
      ShownAddress.mk.injEq, exists_eq_left', ne_eq, not_false_eq_true, true_and]
    constructor
    · rintro ⟨rfl, rfl⟩
      exact ⟨rfl, rfl⟩
    · rintro ⟨rfl, rfl⟩
      exact ⟨rfl, rfl⟩

end Request

namespace Machine

variable {m : Machine} {host : Host} {config : Config} {number : UInt32} {s : Syscall}
  {v : Vector Int32 s.arity} {r : Request} {f : Fault} {log : List LogEvent}

theorem vetted_iff :
    m.Vetted config number s v ↔ Syscall.ofNumber? number = some s ∧ config.permits s = true ∧
      m.stack.peekI32 s.arity = .ok v := by
  rw [Syscall.ofNumber?_eq_some_iff, Stack.peekI32_eq_ok_iff]
  exact ⟨fun h => ⟨h.number_eq, h.permitted, h.enough, h.operands⟩,
    fun ⟨hn, hc, hle, ho⟩ => ⟨hn, hc, hle, ho⟩⟩

theorem Vetted.eq_syscall {t : Syscall} {u : Vector Int32 t.arity}
    (h : m.Vetted config s.number t u) : t = s := by
  have hsome := (vetted_iff.mp h).1
  rw [Syscall.ofNumber?_number] at hsome
  exact (Option.some.inj hsome).symm

theorem Vetted.operands_iff (h : m.Vetted config s.number s v) {t : Syscall} {ns : List Int32} :
    (∃ u, m.Vetted config s.number t u ∧ ns = u.toList) ↔ t = s ∧ ns = v.toList := by
  constructor
  · rintro ⟨u, hu, rfl⟩
    obtain rfl := hu.eq_syscall
    have hsame := (vetted_iff.mp hu).2.2.symm.trans (vetted_iff.mp h).2.2
    exact ⟨rfl, by rw [Except.ok.inj hsame]⟩
  · rintro ⟨rfl, rfl⟩
    exact ⟨v, h, rfl⟩

theorem Vetted.sleeps_iff (h : m.Vetted config s.number s v) :
    (∃ u, m.Vetted config s.number .nanosleep u) ↔ s = .nanosleep := by
  constructor
  · rintro ⟨u, hu⟩
    exact hu.eq_syscall.symm
  · rintro rfl
    exact ⟨v, h⟩

theorem entry_number (m : Machine) (s : Syscall) :
    m.entry s.number = .invoked s m.stack.available := by
  rw [entry, Syscall.ofNumber?_number]

/-- Without a host call there is no record of an answer. -/
theorem trap_recordsAnswer (early : ∀ e ∈ log, e.stage < 4) :
    (m.trap number f [] log).RecordsAnswer m host config number := by
  have hfailed (errno : Int32) : .hostFailed errno ∉ log := by
    intro he
    have hlt : (5 : Nat) < 4 := early _ he
    omega
  have hpeer (e : LogEvent) (he : e ∈ log) (shown : ShownAddress) : e.peer? ≠ some shown := by
    intro hs
    have hlt := early e he
    rw [LogEvent.stage_of_peer? hs] at hlt
    omega
  constructor
  · intro errno
    simp [trap, hfailed]
  · intro errno he
    exact absurd he (hfailed errno)
  · intro shown
    constructor
    · rintro ⟨e, he, hs⟩
      exact absurd hs (hpeer e he shown)
    · rintro ⟨_, _, _, call, -, -, -, hc, -⟩
      cases hc

theorem audited_of_records {o : Outcome} (hc : o.RecordsChecks m config number)
    (ha : o.RecordsAnswer m host config number)
    (ordered : (o.log.map LogEvent.stage).Pairwise (· < ·)) :
    o.Audited m host config number :=
  ⟨hc, ha, Outcome.legible_of_records hc ha, fun _ hs => Session.records_trace hs o.log, ordered,
    fun e _ => e.levelled⟩

theorem unknown_audited (h : Syscall.ofNumber? number = none) :
    (m.dispatch host config number).Audited m host config number := by
  have hentry : m.entry number = .unknownNumber number := by rw [entry, h]
  have hnot {s : Syscall} {v : Vector Int32 s.arity} : ¬m.Vetted config number s v := by
    intro hv
    rw [(vetted_iff.mp hv).1] at h
    cases h
  have hd : m.dispatch host config number =
      m.trap number (.unknownSyscall number) [] [.unknownNumber number] := by rw [dispatch, h]
  rw [hd]
  refine audited_of_records ⟨⟨[], by rw [hentry]; rfl, ?_⟩, ?_, ?_, ?_, ?_⟩
    (trap_recordsAnswer ?_) ?_
  · simp
  · simp [trap]
  · simp [trap]
  · simp [trap, hnot]
  · simp [trap, hnot]
  · simp [LogEvent.stage]
  · simp [trap]

theorem denied_audited (h : config.permits s = false) :
    (m.trap s.number (.capabilityDenied s) [] [.invoked s m.stack.available, .refused s]).Audited
      m host config s.number := by
  have hnot {t : Syscall} {u : Vector Int32 t.arity} : ¬m.Vetted config s.number t u := by
    intro hu
    obtain rfl := hu.eq_syscall
    rw [hu.permitted] at h
    cases h
  refine audited_of_records ⟨⟨[.refused s], by rw [m.entry_number]; rfl, ?_⟩, ?_, ?_, ?_, ?_⟩
    (trap_recordsAnswer ?_) ?_
  · simp [LogEvent.level]
  · simp [trap, eq_comm]
  · simp [trap]
  · simp [trap, hnot]
  · simp [trap, hnot]
  · simp [LogEvent.stage]
  · simp [trap, LogEvent.stage]

theorem misfit_audited (h : m.stack.peekI32 s.arity = .error f) :
    (m.trap s.number f [] [.invoked s m.stack.available]).Audited m host config s.number := by
  have hnot {t : Syscall} {u : Vector Int32 t.arity} : ¬m.Vetted config s.number t u := by
    intro hu
    obtain rfl := hu.eq_syscall
    rw [(vetted_iff.mp hu).2.2] at h
    cases h
  have hf (t : Syscall) : f ≠ .capabilityDenied t := by
    rcases Stack.peekI32_error h with rfl | ⟨actual, rfl⟩ <;> nofun
  refine audited_of_records ⟨⟨[], by rw [m.entry_number]; rfl, nofun⟩, ?_, ?_, ?_, ?_⟩
    (trap_recordsAnswer ?_) ?_
  · simp [trap, hf]
  · simp [trap]
  · simp [trap, hnot]
  · simp [trap, hnot]
  · simp [LogEvent.stage]
  · simp [trap]

theorem ungranted_audited (hv : m.Vetted config s.number s v)
    (h : Request.ofSyscall m s v = .error f) :
    (m.trap s.number f [] (.invoked s m.stack.available :: .operands s v.toList ::
      s.warnings)).Audited m host config s.number := by
  have hf (t : Syscall) : f ≠ .capabilityDenied t := by
    rintro rfl
    cases Request.ofSyscall_requesting _ h
  refine audited_of_records ⟨⟨_, by rw [m.entry_number]; rfl, ?_⟩, ?_, ?_, ?_, ?_⟩
    (trap_recordsAnswer ?_) ?_
  · simp [LogEvent.level]
  · simp [trap, hf, Syscall.mem_warnings]
  · simp [trap, Syscall.mem_warnings]
  · intro t ns
    rw [hv.operands_iff]
    simp [trap, Syscall.mem_warnings]
  · rw [hv.sleeps_iff]
    simp [trap, Syscall.mem_warnings]
  · simp +contextual [Syscall.mem_warnings, LogEvent.stage]
  · have hall := s.warnings_stages.cons_cons 2 |>.cons_cons 0
    exact List.Pairwise.sublist hall (by decide)

theorem Refuses.audited (h : m.Refuses config s f log) (host : Host) :
    (m.dispatch host config s.number).Audited m host config s.number := by
  rw [h.dispatch_eq]
  cases h with
  | denied hc => exact denied_audited hc
  | operands hc ho => exact misfit_audited ho
  | request hc ho hr =>
    exact ungranted_audited (vetted_iff.mpr ⟨Syscall.ofNumber?_number s, hc, ho⟩) hr

theorem Passes.vetted (h : m.Passes config s v r) : m.Vetted config s.number s v :=
  vetted_iff.mpr ⟨Syscall.ofNumber?_number s, h.permitted, h.operands⟩

/-- The records of a dispatch that has passed every check: those of the checks, of the call, and of
the answer if the call returned at all. -/
theorem Passes.log_eq (h : m.Passes config s v r) (host : Host) :
    ∃ answer, (m.dispatch host config s.number).log =
        s.preamble m.stack.available v r ++ answer ∧
      List.Sublist (answer.map LogEvent.stage) [5] ∧
      ∀ e, e ∈ answer ↔
        (∀ status, r.call ≠ .exit status) ∧ e ∈ r.records (host.answer r.call) := by
  rcases r.call.exits_or_not with ⟨status, hx⟩ | hne
  · exact ⟨[], by rw [h.log_exit hx, List.append_nil], List.nil_sublist _, by simp [hx]⟩
  · exact ⟨_, h.log_answered hne host, Request.records_stages h.granted _, by simp [hne]⟩

/-- The records up to the call tell of the call no more than its announcement. -/
theorem Passes.mem_log_early (h : m.Passes config s v r) {e : LogEvent} (he : e.stage < 4) :
    e ∈ (m.dispatch host config s.number).log ↔
      e = .invoked s m.stack.available ∨ e = .operands s v.toList ∨ e ∈ s.warnings := by
  obtain ⟨answer, hlog, hlast, -⟩ := h.log_eq host
  have hcall : e ∉ r.call.announcement := by
    intro hmem
    have hstage := LogEvent.stage_of_mem r.call.announcement_stages hmem
    rw [List.mem_singleton] at hstage
    omega
  have hanswer : e ∉ answer := by
    intro hmem
    have hstage := LogEvent.stage_of_mem hlast hmem
    rw [List.mem_singleton] at hstage
    omega
  rw [hlog]
  simp [Syscall.preamble, hcall, hanswer]

/-- The records of the answer are there if the call has returned. -/
theorem Passes.mem_log_late (h : m.Passes config s v r) {e : LogEvent} (he : e.stage = 5) :
    e ∈ (m.dispatch host config s.number).log ↔
      (∀ status, r.call ≠ .exit status) ∧ e ∈ r.records (host.answer r.call) := by
  obtain ⟨answer, hlog, -, hanswer⟩ := h.log_eq host
  have hearly : e ∉ s.preamble m.stack.available v r := by
    intro hmem
    have hstage := LogEvent.stage_of_mem (s.preamble_stages m.stack.available v r) hmem
    rw [he] at hstage
    simp at hstage
  rw [hlog, List.mem_append, or_iff_right hearly, hanswer e]

theorem Passes.fault_of_ending (h : m.Passes config s v r) {t : Trap}
    (ht : (m.dispatch host config s.number).ending = .trapped t) :
    ∃ failure, t.fault = .syscallFailed failure := by
  rcases r.call.exits_or_not with ⟨status, hx⟩ | hne
  · rw [(h.exited host hx).ending] at ht
    cases ht
  · cases hres : r.call.result (host.answer r.call) with
    | error f =>
      have hfailed := h.hostFailed hne hres
      rw [hfailed.ending] at ht
      cases ht
      exact hfailed.fault
    | ok n =>
      rw [(h.returned hne hres).ending] at ht
      cases ht

theorem Passes.recordsChecks (h : m.Passes config s v r) (host : Host) :
    (m.dispatch host config s.number).RecordsChecks m config s.number := by
  obtain ⟨answer, hlog, -⟩ := h.log_eq host
  have hrefused (t : Syscall) : .refused t ∉ (m.dispatch host config s.number).log := by
    rw [h.mem_log_early (by simp [LogEvent.stage])]
    simp [Syscall.mem_warnings]
  refine ⟨⟨_, by rw [hlog, m.entry_number]; rfl, ?_⟩, ?_, ?_, ?_, ?_⟩
  · rintro e ⟨⟩
    nofun
  · intro t
    refine iff_of_false (hrefused t) ?_
    rintro ⟨trap, ht, hf⟩
    obtain ⟨failure, hfailure⟩ := h.fault_of_ending ht
    rw [hf] at hfailure
    cases hfailure
  · exact fun t ht => absurd ht (hrefused t)
  · intro t ns
    rw [h.mem_log_early (by simp [LogEvent.stage]), h.vetted.operands_iff]
    simp [Syscall.mem_warnings]
  · rw [h.mem_log_early (by simp [LogEvent.stage]), h.vetted.sleeps_iff]
    simp [Syscall.mem_warnings]

theorem Passes.recordsAnswer (h : m.Passes config s v r) (host : Host) :
    (m.dispatch host config s.number).RecordsAnswer m host config s.number := by
  have hcalls := h.calls_eq host
  constructor
  · intro errno
    rw [h.mem_log_late rfl, Request.hostFailed_mem_records h.granted, hcalls]
    simp only [List.mem_singleton, exists_eq_left, and_left_comm]
  · intro errno he
    obtain ⟨hne, hmem⟩ := (h.mem_log_late rfl).mp he
    obtain ⟨hcall, hvalue, rfl⟩ := (Request.hostFailed_mem_records h.granted).mp hmem
    have hres : r.call.result (host.answer r.call) =
        .error (.syscallFailed (.os (host.answer r.call).errno)) := by
      rw [HostCall.result, HostCall.outcome_eq_error_iff.mpr ⟨hcall, hvalue, rfl⟩]
    exact ⟨_, (h.hostFailed hne hres).ending, rfl, rfl⟩
  · intro shown
    have hrecords := @Request.peer_mem_records _ _ _ _ (host.answer r.call) h.granted shown
    constructor
    · rintro ⟨e, he, hs⟩
      obtain ⟨-, hmem⟩ := (h.mem_log_late (LogEvent.stage_of_peer? hs)).mp he
      obtain ⟨w, hw, hz, hv, hlength, hbytes⟩ := hrecords.mp ⟨e, hmem, hs⟩
      exact ⟨s, v, w, r.call, h.vetted, hw, hz, by simp [hcalls], hv, hlength, hlength ▸ hbytes⟩
    · rintro ⟨t, u, w, call, hu, hw, hz, hc, hv, hlength, hbytes⟩
      obtain rfl := hu.eq_syscall
      have hsame := (vetted_iff.mp hu).2.2.symm.trans (vetted_iff.mp h.vetted).2.2
      obtain rfl := Except.ok.inj hsame
      obtain rfl : call = r.call := by simpa [hcalls] using hc
      obtain ⟨e, hmem, hs⟩ := hrecords.mpr ⟨w, hw, hz, hv, hlength, hbytes⟩
      have hne (status : Int32) : r.call ≠ .exit status := by
        intro hx
        obtain rfl := h.eq_exit hx
        simp [Syscall.receiving?] at hw
      exact ⟨e, (h.mem_log_late (LogEvent.stage_of_peer? hs)).mpr ⟨hne, hmem⟩, hs⟩

theorem Passes.ordered (h : m.Passes config s v r) (host : Host) :
    ((m.dispatch host config s.number).log.map LogEvent.stage).Pairwise (· < ·) := by
  obtain ⟨answer, hlog, hlast, -⟩ := h.log_eq host
  have hall : List.Sublist ((m.dispatch host config s.number).log.map LogEvent.stage)
      [0, 2, 3, 4, 5] := by
    rw [hlog, List.map_append]
    exact List.Sublist.append (s.preamble_stages m.stack.available v r) hlast
  exact List.Pairwise.sublist hall (by decide)

theorem Passes.audited (h : m.Passes config s v r) (host : Host) :
    (m.dispatch host config s.number).Audited m host config s.number :=
  audited_of_records (h.recordsChecks host) (h.recordsAnswer host) (h.ordered host)

/-- The log of every dispatch is a faithful audit trail. -/
theorem dispatch_audited (m : Machine) (host : Host) (config : Config) (number : UInt32) :
    (m.dispatch host config number).Audited m host config number := by
  cases hs : Syscall.ofNumber? number with
  | none => exact unknown_audited hs
  | some s =>
    obtain rfl := Syscall.ofNumber?_eq_some_iff.mp hs
    rcases m.refuses_or_passes config s with ⟨f, log, hr⟩ | ⟨v, r, hp⟩
    · exact hr.audited host
    · exact hp.audited host

end Machine

end GuestGate
