import GuestGate.Proofs.Dispatch

/-!
# The three endings of a dispatch

A dispatch that does not end the host process is refused with everything as it was, or fails in the
host with its operands gone, or returns one integer, which is the host's. The host is called once in
the last two cases and never in the first.
-/

namespace GuestGate

/-- A trap that names what was dispatched and shows the stack that is left. -/
structure Trap.Reports (t : Trap) (number : UInt32) (left : Stack) : Prop where
  number_eq : t.number = number
  label_eq : t.label = ((Syscall.ofNumber? number).map Syscall.label).getD "unknown"
  snapshot_eq : t.snapshot = left.snapshot

namespace Outcome

/-- The host process ended, as the guest asked. -/
structure Exited (o : Outcome) (number : UInt32) (status : Int32) : Prop where
  number_eq : number = Syscall.exit.number
  ending : o.ending = .exited status
  calls : o.calls = [.exit status]

/-- Nothing was called and nothing has changed. -/
structure Refused (o : Outcome) (m : Machine) (number : UInt32) (t : Trap) : Prop where
  ending : o.ending = .trapped t
  fault : ∀ failure, t.fault ≠ .syscallFailed failure
  reports : t.Reports number o.machine.stack
  calls : o.calls = []
  machine : o.machine = m

/-- One host primitive was called, with the integers among the operands on top. -/
structure Called (o : Outcome) (m : Machine) (number : UInt32) (s : Syscall)
    (v : Vector Int32 s.arity) (rest : List Value) (call : HostCall) : Prop where
  number_eq : s.number = number
  enough : s.arity ≤ m.stack.available
  operands : m.stack.operands = Stack.pushed v ++ rest
  calls : o.calls = [call]
  primitive : call.service = s.servedBy
  integers : call.integers = s.integers v
  frames : o.machine.stack.frames = m.stack.frames

/-- The call failed: the operands are gone and nothing takes their place. -/
structure HostFailed (o : Outcome) (m : Machine) (number : UInt32) (t : Trap) (s : Syscall)
    (v : Vector Int32 s.arity) (rest : List Value) (call : HostCall) : Prop
    extends o.Called m number s v rest call where
  ending : o.ending = .trapped t
  fault : ∃ failure, t.fault = .syscallFailed failure
  reports : t.Reports number o.machine.stack
  left : o.machine.stack.operands = rest

/-- The call returned: one integer takes the place of the operands. -/
structure Returned (o : Outcome) (m : Machine) (host : Host) (number : UInt32) (s : Syscall)
    (v : Vector Int32 s.arity) (rest : List Value) (call : HostCall) (n : Int32) : Prop
    extends o.Called m number s v rest call where
  ending : o.ending = .returned
  left : o.machine.stack.operands = .i32 n :: rest
  value : n.toInt = (host.answer call).value

variable {o : Outcome} {m : Machine} {host : Host} {number : UInt32}

theorem Refused.not_hostFailed {t : Trap} (h : o.Refused m number t) :
    ¬∃ t s v rest call, o.HostFailed m number t s v rest call := by
  rintro ⟨t', s, v, rest, call, hf⟩
  obtain ⟨failure, hfail⟩ := hf.fault
  have ht := hf.ending
  rw [h.ending, Ending.trapped.injEq] at ht
  exact h.fault failure (ht ▸ hfail)

theorem Refused.not_returned {t : Trap} (h : o.Refused m number t) :
    ¬∃ s v rest call n, o.Returned m host number s v rest call n := by
  rintro ⟨s, v, rest, call, n, hr⟩
  have he := hr.ending
  rw [h.ending] at he
  cases he

theorem HostFailed.not_returned {t : Trap} {s : Syscall} {v : Vector Int32 s.arity}
    {rest : List Value} {call : HostCall} (h : o.HostFailed m number t s v rest call) :
    ¬∃ s v rest call n, o.Returned m host number s v rest call n := by
  rintro ⟨s', v', rest', call', n, hr⟩
  have he := hr.ending
  rw [h.ending] at he
  cases he

end Outcome

def ExactlyOne (a b c : Prop) : Prop := (a ∧ ¬b ∧ ¬c) ∨ (¬a ∧ b ∧ ¬c) ∨ (¬a ∧ ¬b ∧ c)

namespace Machine

variable {m : Machine} {config : Config} {s : Syscall} {v : Vector Int32 s.arity} {r : Request}

theorem reports_trap (m : Machine) (number : UInt32) (f : Fault) :
    Trap.Reports ⟨number, f, m.stack.snapshot⟩ number m.stack := by
  refine ⟨rfl, ?_, rfl⟩
  unfold Trap.label Trap.syscall?
  cases Syscall.ofNumber? number <;> rfl

theorem refused_trap (m : Machine) (number : UInt32) {f : Fault} (hf : f.blamesHost = false)
    (log : List LogEvent) :
    (m.trap number f [] log).Refused m number ⟨number, f, m.stack.snapshot⟩ := by
  refine ⟨rfl, ?_, m.reports_trap number f, rfl, rfl⟩
  rintro failure rfl
  cases hf

theorem Passes.called (h : m.Passes config s v r) {o : Outcome} (hc : o.calls = [r.call])
    (hf : o.machine.stack.frames = m.stack.frames) :
    o.Called m s.number s v (m.taken s).stack.operands r.call :=
  ⟨rfl, h.arity_le, Stack.operands_dropped h.operands, hc, h.faithful.service,
    h.faithful.integers, hf⟩

/-- A request to end the host process is the request of the one syscall for that. -/
theorem Passes.eq_exit (h : m.Passes config s v r) {status : Int32} (hr : r.call = .exit status) :
    s = .exit := by
  have hs := h.faithful.service
  rw [hr] at hs
  cases s <;> first | rfl | cases hs

theorem Passes.exited (h : m.Passes config s v r) (host : Host) {status : Int32}
    (hr : r.call = .exit status) : (m.dispatch host config s.number).Exited s.number status := by
  rw [h.dispatch_eq, perform_exit host _ _ hr]
  exact ⟨by rw [h.eq_exit hr], rfl, rfl⟩

theorem Passes.hostFailed (h : m.Passes config s v r) (hx : ∀ status, r.call ≠ .exit status)
    {host : Host} {f : Fault} (hf : r.call.result (host.answer r.call) = .error f) :
    (m.dispatch host config s.number).HostFailed m s.number
      ⟨s.number, f, (m.taken s).stack.snapshot⟩ s v (m.taken s).stack.operands r.call := by
  have hb : f.blamesHost = true := HostCall.blamesHost_of_result hf
  have hfail : ∃ failure, f = .syscallFailed failure := by
    cases f <;> first | exact ⟨_, rfl⟩ | cases hb
  rw [h.dispatch_eq, perform_eq h.faithful.landing hx, hf]
  exact ⟨h.called rfl rfl, rfl, hfail, reports_trap .., rfl⟩

theorem Passes.returned (h : m.Passes config s v r) (hx : ∀ status, r.call ≠ .exit status)
    {host : Host} {n : Int32} (hn : r.call.result (host.answer r.call) = .ok n) :
    (m.dispatch host config s.number).Returned m host s.number s v (m.taken s).stack.operands
      r.call n := by
  rw [h.dispatch_eq, perform_eq h.faithful.landing hx, hn]
  exact ⟨h.called rfl rfl, rfl, rfl, HostCall.toInt_of_result hn⟩

/-- A dispatch that does not end the host process has exactly one of three endings. -/
theorem dispatch_trichotomy (m : Machine) (host : Host) (config : Config) (number : UInt32) :
    (∃ status, (m.dispatch host config number).Exited number status) ∨
    ExactlyOne
      (∃ t, (m.dispatch host config number).Refused m number t)
      (∃ t s v rest call, (m.dispatch host config number).HostFailed m number t s v rest call)
      (∃ s v rest call n,
        (m.dispatch host config number).Returned m host number s v rest call n) := by
  rcases m.dispatch_cases config number with ⟨f, log, hf, hd⟩ | ⟨s, v, r, rfl, hp⟩
  · have hr := m.refused_trap number hf log
    rw [← hd host] at hr
    exact .inr (.inl ⟨⟨_, hr⟩, hr.not_hostFailed, hr.not_returned⟩)
  rcases r.call.exits_or_not with ⟨status, hx⟩ | hne
  · exact .inl ⟨status, hp.exited host hx⟩
  cases hres : r.call.result (host.answer r.call) with
  | error f =>
    have hh := hp.hostFailed hne hres
    refine .inr (.inr (.inl ⟨?_, ⟨_, _, _, _, _, hh⟩, hh.not_returned⟩))
    rintro ⟨t, ht⟩
    exact ht.not_hostFailed ⟨_, _, _, _, _, hh⟩
  | ok n =>
    have hr := hp.returned hne hres
    refine .inr (.inr (.inr ⟨?_, ?_, _, _, _, _, _, hr⟩))
    · rintro ⟨t, ht⟩
      exact ht.not_returned ⟨_, _, _, _, _, hr⟩
    · rintro ⟨t, s', v', rest, call, ht⟩
      exact ht.not_returned ⟨_, _, _, _, _, hr⟩

end Machine

end GuestGate
