import GuestGate.Proofs.Confinement
import GuestGate.Proofs.Resolution

/-!
# Guests that cannot leave their process

While the configuration does not permit process control, no trap ends, replaces or duplicates the
host process. A trap that asks for it is refused before anything else is looked at, so neither the
operands nor the memory matter.
-/

namespace GuestGate

/-- A primitive that ends, replaces or duplicates the host process. -/
inductive HostCall.LeavesProcess : HostCall → Prop where
  | exit (status : Int32) : LeavesProcess (.exit status)
  | execve (args : ExecArgs) : LeavesProcess (.execve args)
  | fork : LeavesProcess .fork

theorem HostCall.LeavesProcess.service {call : HostCall} (h : call.LeavesProcess) :
    call.service.controlsProcess = true := by
  cases h <;> rfl

theorem Syscall.controlsProcess_servedBy (s : Syscall) :
    s.servedBy.controlsProcess = s.controlsProcess := by
  cases s <;> rfl

namespace Config

/-- What a builder call sets the flag to. -/
def BuilderCall.flag? : BuilderCall → Option Bool
  | .allowProcessControl allow => some allow
  | .deny _ => none

/-- The last call that sets the flag decides, and without one it is down. -/
theorem allowProcessControl_build (calls : List BuilderCall) :
    (build calls).allowProcessControl =
      ((calls.filterMap BuilderCall.flag?).getLast?).getD false := by
  have hrun (c : Config) : (calls.foldl BuilderCall.apply c).allowProcessControl =
      ((calls.filterMap BuilderCall.flag?).getLast?).getD c.allowProcessControl := by
    induction calls generalizing c with
    | nil => rfl
    | cons call calls ih =>
      rw [List.foldl_cons, ih]
      cases call with
      | allowProcessControl allow =>
        simp [BuilderCall.flag?, BuilderCall.apply, withProcessControl, List.getLast?_cons]
      | deny s => rfl
  exact hrun {}

theorem permits_eq_false {c : Config} (down : c.allowProcessControl = false) {s : Syscall}
    (controls : s.controlsProcess = true) : c.permits s = false := by
  simp [permits, down, controls]

end Config

theorem Machine.dispatch_denied {config : Config} (down : config.allowProcessControl = false)
    {s : Syscall} (controls : s.controlsProcess = true) (m : Machine) (host : Host) :
    (m.dispatch host config s.number).RefusedFor m s.number (.capabilityDenied s) := by
  have hdenied : m.Refuses config s (.capabilityDenied s) [.refused s] :=
    .denied (Config.permits_eq_false down controls)
  rw [hdenied.dispatch_eq]
  exact ⟨rfl, rfl, rfl⟩

/-- A step that permits no process control. -/
def Step.KeepsFlagDown : Step → Prop
  | .configure source => ∀ c, source.load = .ok c → c.allowProcessControl = false
  | _ => True

namespace Session

variable {s : Session}

/-- The flag is down after a step, and the host process is the one before it. -/
structure StaysInProcess (r : Report) : Prop where
  down : r.after.config.allowProcessControl = false
  calls : ∀ call ∈ r.calls, ¬call.LeavesProcess

theorem step_stays {step : Step} (down : s.config.allowProcessControl = false)
    (keeps : step.KeepsFlagDown) : StaysInProcess (s.step step) := by
  by_cases hc : ∃ source, step = .configure source
  · obtain ⟨source, rfl⟩ := hc
    unfold Session.step
    dsimp only
    split
    next config hload => exact ⟨keeps config hload, nofun⟩
    · exact ⟨down, nofun⟩
  · have hsource (source : ConfigSource) : step ≠ .configure source := fun he => hc ⟨source, he⟩
    have hdown : (s.step step).after.config.allowProcessControl = false := by
      rw [step_config hsource]
      exact down
    refine ⟨hdown, fun call hmade hleaves => ?_⟩
    obtain ⟨t, permitted, hservice⟩ := step_serves hsource hmade
    have hcontrols : t.controlsProcess = true := by
      rw [← t.controlsProcess_servedBy, ← hservice]
      exact hleaves.service
    rw [Config.permits_eq_false down hcontrols] at permitted
    cases permitted

theorem run_stays {steps : List Step} (down : s.config.allowProcessControl = false)
    (keeps : ∀ step ∈ steps, step.KeepsFlagDown) :
    ∀ report ∈ s.run steps, StaysInProcess report := by
  refine run_forall (I := fun t => t.config.allowProcessControl = false) ?_ down
  intro t ht step hmem
  have hstays := step_stays ht (keeps step hmem)
  exact ⟨hstays, hstays.down⟩

end Session

/-- While the flag is down, no run makes a call that leaves the process, and a trap that asks for
one is refused as denied and changes nothing, whatever is on the stack and in the memories. -/
theorem Config.keeps_guest_in_process {config : Config}
    (down : config.allowProcessControl = false) :
    (∀ (s : Session) (steps : List Step), s.config = config →
      (∀ step ∈ steps, step.KeepsFlagDown) → ∀ report ∈ s.run steps,
        report.after.config.allowProcessControl = false ∧
          ∀ call ∈ report.calls, ¬call.LeavesProcess) ∧
    ∀ (m : Machine) (host : Host) (s : Syscall), s.controlsProcess = true →
      (m.dispatch host config s.number).RefusedFor m s.number (.capabilityDenied s) := by
  constructor
  · rintro s steps rfl keeps report hr
    have hstays := Session.run_stays down keeps report hr
    exact ⟨hstays.down, hstays.calls⟩
  · intro m host s controls
    exact m.dispatch_denied down controls host

/-- Built with the flag first up and then down. -/
def Config.withdrawn : Config :=
  build [.allowProcessControl true, .deny .kill, .allowProcessControl false]

/-- Traps for process control with operands missing, of another type or out of memory, between
other steps and a change of configuration. -/
def restless : List Step :=
  [.call Syscall.fork.number [] (.replying ⟨0, 0, [], [], 0⟩), .push (.i64 1),
    .call Syscall.exit.number [] (.replying ⟨0, 0, [], [], 0⟩), .allocate 1 none,
    .memory ⟨0⟩ (.grow 1), .configure (.text "[false, [\"kill\"]]"),
    .call Syscall.getpid.number [] (.replying ⟨7, 0, [], [], 0⟩), .popFrame,
    .call Syscall.execve.number [-1, -1, -1] (.replying ⟨0, 0, [], [], 0⟩), .pop,
    .call Syscall.vfork.number [] (.replying ⟨0, 0, [], [], 0⟩)]

theorem restless_kept_in_process :
    Config.withdrawn.allowProcessControl = false ∧ (∀ step ∈ restless, step.KeepsFlagDown) ∧
    (∀ report ∈ ({ config := .withdrawn } : Session).run restless,
      report.after.config.allowProcessControl = false ∧
        ∀ call ∈ report.calls, ¬call.LeavesProcess) ∧
    (Machine.dispatch ⟨{}, {}⟩ (.replying ⟨0, 0, [], [], 0⟩) .withdrawn
      Syscall.execve.number).RefusedFor ⟨{}, {}⟩ Syscall.execve.number
        (.capabilityDenied .execve) := by
  have down : Config.withdrawn.allowProcessControl = false := Config.allowProcessControl_build _
  have hload : (ConfigSource.text "[false, [\"kill\"]]").load.toOption =
      some ⟨false, .ofList ["kill"]⟩ := by decide +kernel
  have hflag (c : Config) (h : (ConfigSource.text "[false, [\"kill\"]]").load = .ok c) :
      c.allowProcessControl = false := by
    rw [h] at hload
    obtain rfl := Option.some.inj hload
    rfl
  have keeps : ∀ step ∈ restless, step.KeepsFlagDown := by
    simpa [restless, Step.KeepsFlagDown] using hflag
  obtain ⟨hrun, hdispatch⟩ := Config.keeps_guest_in_process down
  exact ⟨down, keeps, hrun _ _ rfl keeps, hdispatch _ _ .execve rfl⟩

end GuestGate
