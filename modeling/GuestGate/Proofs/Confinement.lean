import GuestGate.Session
import GuestGate.Proofs.Dispatch

/-!
# What a deny list keeps from the guest

The configuration is asked about the syscall that was dispatched, and a host primitive may serve
more than one syscall. So a primitive is out of reach when every syscall it serves is denied, and
no dispatch calls one that serves no permitted syscall.
-/

namespace GuestGate

/-- A dispatch as the embedder may bring it about: any machine, any host, any number. -/
structure Attempt where
  machine : Machine
  host : Host
  number : UInt32

def Attempt.calls (a : Attempt) (c : Config) : List HostCall :=
  (a.machine.dispatch a.host c a.number).calls

/-- The calls of a run of attempts under one configuration. -/
def Config.calls (c : Config) : List Attempt → List HostCall
  | [] => []
  | a :: rest => a.calls c ++ c.calls rest

/-- A call is made for the syscall dispatched, which is permitted and which the primitive serves. -/
theorem Machine.dispatch_serves {m : Machine} {host : Host} {config : Config} {number : UInt32}
    {call : HostCall} (h : call ∈ (m.dispatch host config number).calls) :
    ∃ s : Syscall, s.number = number ∧ config.permits s = true ∧ call.service = s.servedBy := by
  rcases m.dispatch_cases config number with ⟨f, log, -, hd⟩ | ⟨s, v, r, rfl, hp⟩
  · rw [hd] at h
    cases h
  · rw [hp.dispatch_eq, perform_calls, List.mem_singleton] at h
    subst h
    exact ⟨s, rfl, hp.permitted, hp.faithful.service⟩

theorem Config.mem_calls {c : Config} {run : List Attempt} {call : HostCall} :
    call ∈ c.calls run ↔ ∃ a ∈ run, call ∈ a.calls c := by
  induction run with
  | nil => simp [calls]
  | cons a rest ih => simp [calls, ih]

/-- Two syscalls are served by the primitive of another, and the rest each by their own. -/
theorem Syscall.servedBy_eq_iff {s t : Syscall} :
    t.servedBy = s ↔ (t = s ∧ s ≠ .vfork ∧ s ≠ .nanosleep) ∨ (t = .vfork ∧ s = .fork) ∨
      (t = .nanosleep ∧ s = .recvfrom) := by
  constructor
  · rintro rfl
    cases t <;> simp [servedBy]
  · rintro (⟨rfl, hv, hn⟩ | ⟨rfl, rfl⟩ | ⟨rfl, rfl⟩)
    · cases t <;> first | rfl | contradiction
    · rfl
    · rfl

/-- A denied primitive is called for a permitted syscall of another name, or not at all. -/
theorem Config.denied_only_through_alias {c : Config} {s : Syscall} {run : List Attempt}
    {call : HostCall} (denied : s.name ∈ c.deny) (made : call ∈ c.calls run)
    (named : call.service = s) :
    ∃ a ∈ run, ∃ t : Syscall, call ∈ a.calls c ∧ a.number = t.number ∧ c.permits t = true ∧
      ((s = .fork ∧ t = .vfork) ∨ (s = .recvfrom ∧ t = .nanosleep)) := by
  obtain ⟨a, ha, hc⟩ := mem_calls.mp made
  obtain ⟨t, hn, hp, hs⟩ := Machine.dispatch_serves hc
  have hd : t.name ∉ c.deny := (permits_iff.mp hp).2
  rw [named] at hs
  rcases Syscall.servedBy_eq_iff.mp hs.symm with ⟨rfl, -, -⟩ | ⟨rfl, rfl⟩ | ⟨rfl, rfl⟩
  · exact absurd denied hd
  · exact ⟨a, ha, .vfork, hc, hn.symm, hp, .inl ⟨rfl, rfl⟩⟩
  · exact ⟨a, ha, .nanosleep, hc, hn.symm, hp, .inr ⟨rfl, rfl⟩⟩

/-- Everything is permitted but one syscall. -/
def Config.allBut (s : Syscall) : Config := Config.permissive.denying s

/-- A trap with zeros for operands, in a module whose one memory has no pages yet. -/
def Attempt.zeros (s : Syscall) : Attempt where
  machine :=
    { store := ⟨#[{ memory := .blank 0 (by decide) }]⟩
      stack := ((({} : Stack).pushFrame ⟨⟨"guest", [⟨0⟩]⟩, 0, [], 0⟩).pushAll
        (List.replicate s.arity (.i32 0))) }
  host := .replying ⟨7, 0, [], [], 0⟩
  number := s.number

theorem denied_fork_through_vfork :
    Syscall.fork.name ∈ (Config.allBut .fork).deny ∧
    HostCall.fork ∈ (Config.allBut .fork).calls [.zeros .vfork] ∧
    ∃ a ∈ [Attempt.zeros .vfork], ∃ t : Syscall, HostCall.fork ∈ a.calls (.allBut .fork) ∧
      a.number = t.number ∧ (Config.allBut .fork).permits t = true ∧
      ((Syscall.fork = .fork ∧ t = .vfork) ∨ (Syscall.fork = .recvfrom ∧ t = .nanosleep)) :=
  ⟨by decide, by decide, Config.denied_only_through_alias (by decide) (by decide) rfl⟩

/-- Denying a syscall alone leaves its primitive within reach of the other syscall it serves. -/
theorem denied_primitives_called :
    (Syscall.fork.name ∈ (Config.allBut .fork).deny ∧
      ∃ call ∈ (Config.allBut .fork).calls [.zeros .vfork], call.service = .fork) ∧
    (Syscall.recvfrom.name ∈ (Config.allBut .recvfrom).deny ∧
      ∃ call ∈ (Config.allBut .recvfrom).calls [.zeros .nanosleep], call.service = .recvfrom) := by
  decide

namespace Session

/-- A report of a step that called nothing and left the configuration alone. -/
def Quiet (s : Session) (r : Report) : Prop := r.after.config = s.config ∧ r.calls = []

variable {s : Session}

theorem quiet_popped {α : Type} (result : Except Fault (α × Stack)) (f : α → Answer) :
    s.Quiet (step.popped s result f) := by
  cases result <;> exact ⟨rfl, rfl⟩

theorem quiet_give (result : Except Fault Answer) : s.Quiet (s.give result) := by
  cases result <;> exact ⟨rfl, rfl⟩

theorem quiet_onMemory {a : MemoryAddress} {access : Access} {act : Cell → Report}
    (h : ∀ c, s.Quiet (act c)) : s.Quiet (s.onMemory a access act) := by
  unfold onMemory
  split
  · exact ⟨rfl, rfl⟩
  · split
    · exact h _
    · exact ⟨rfl, rfl⟩

theorem quiet_memoryStep (a : MemoryAddress) (m : Memory) (step : MemoryStep) :
    s.Quiet (s.memoryStep a m step) := by
  unfold memoryStep
  split <;> exact ⟨rfl, rfl⟩

/-- Only a trap calls the host, and only reconfiguring changes the configuration. -/
theorem step_quiet {step : Step} (hc : ∀ source, step ≠ .configure source)
    (ht : ∀ number operands host, step ≠ .call number operands host) : s.Quiet (s.step step) := by
  cases step
  case pop | popTyped | popI32 | discard => exact quiet_popped ..
  case peekI32 | currentFrame => exact quiet_give _
  case memory => exact quiet_onMemory fun c => quiet_memoryStep ..
  case hold => exact quiet_onMemory fun c => ⟨rfl, rfl⟩
  case pushFrame | allocate =>
    unfold Session.step
    dsimp only
    split <;> exact ⟨rfl, rfl⟩
  case configure source => exact absurd rfl (hc source)
  case call number operands host => exact absurd rfl (ht number operands host)
  all_goals exact ⟨rfl, rfl⟩

theorem step_config {step : Step} (hc : ∀ source, step ≠ .configure source) :
    (s.step step).after.config = s.config := by
  by_cases ht : ∃ number operands host, step = .call number operands host
  · obtain ⟨number, operands, host, rfl⟩ := ht
    rfl
  · exact (step_quiet hc fun number operands host he => ht ⟨number, operands, host, he⟩).1

theorem step_serves {step : Step} {call : HostCall} (hc : ∀ source, step ≠ .configure source)
    (h : call ∈ (s.step step).calls) :
    ∃ t : Syscall, s.config.permits t = true ∧ call.service = t.servedBy := by
  by_cases ht : ∃ number operands host, step = .call number operands host
  · obtain ⟨number, operands, host, rfl⟩ := ht
    obtain ⟨t, -, hp, hs⟩ := Machine.dispatch_serves h
    exact ⟨t, hp, hs⟩
  · rw [(step_quiet hc fun number operands host he => ht ⟨number, operands, host, he⟩).2] at h
    cases h

/-- In a session that keeps its configuration, every call ever made serves a permitted syscall. -/
theorem run_serves {steps : List Step} (hc : ∀ step ∈ steps, ∀ source, step ≠ .configure source) :
    ∀ report ∈ s.run steps, ∀ call ∈ report.calls,
      ∃ t : Syscall, s.config.permits t = true ∧ call.service = t.servedBy := by
  refine run_forall (I := fun t => t.config = s.config) (fun t ht step hmem => ?_) rfl
  have hstep := hc step hmem
  refine ⟨fun call hcall => ?_, (step_config hstep).trans ht⟩
  rw [← ht]
  exact step_serves hstep hcall

end Session

end GuestGate
