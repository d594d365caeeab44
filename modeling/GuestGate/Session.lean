import GuestGate.Config.Text
import GuestGate.Dispatch
import GuestGate.Memory.Step

/-!
# Sessions

An embedder at work: it sets up a configuration, memories and modules, and then takes steps on
the stack, on the memories and through syscalls. Each step is reported with its answer, the host
calls it made, the records it left and the state after it.
-/

namespace GuestGate

/-- Where a configuration comes from. -/
inductive ConfigSource where
  | permissive
  | text (json : String)
  | built (allowProcessControl : Bool) (deny : List Syscall)
deriving DecidableEq, Repr

def ConfigSource.load : ConfigSource → Except Fault Config
  | .permissive => .ok .permissive
  | .text json =>
    match Config.ofJson json with
    | .ok c => .ok c
    | .error p => .error (.invalidConfig p)
  | .built allow deny => .ok (deny.foldl Config.denying (({} : Config).withProcessControl allow))

inductive Step where
  | push (v : Value)
  | pushAll (vs : List Value)
  | pop
  | popTyped (type : ValueType)
  | popI32
  | peek
  | peekI32 (count : Nat)
  | discard (count : Nat)
  | heights
  | pushFrame (moduleIndex : Nat) (function : UInt32) (locals : List Value) (base : Nat)
  | popFrame
  | currentFrame
  | snapshot
  | saveSnapshot
  | sameSnapshot
  | configure (source : ConfigSource)
  | addModule (m : GuestModule)
  | memoryCount
  | allocate (pages : Nat) (maximum : Option Nat)
  | hasMemory (a : MemoryAddress)
  | memory (a : MemoryAddress) (step : MemoryStep)
  | hold (a : MemoryAddress) (access : Access)
  | release
  /-- Pushes the operands and traps with the number. -/
  | call (number : UInt32) (operands : List Int32) (host : Host)

inductive Answer where
  | done
  | value (v : Option Value)
  | integer (n : Int)
  | integers (ns : List Int32)
  | flag (b : Bool)
  | heights (operands available frames : Nat)
  | frame (f : Option Frame)
  | snapshot (s : Snapshot)
  | memory (a : MemoryAnswer)
  | exited
deriving DecidableEq, Repr

inductive Refusal where
  | fault (f : Fault)
  | trap (t : Trap)
  /-- The embedder itself holds the memory in a way that excludes the access. -/
  | busy (access : Access)
  | unknownModule (index : Nat)
deriving DecidableEq, Repr

structure Session where
  config : Config
  machine : Machine := ⟨{}, {}⟩
  modules : Array GuestModule := #[]
  saved : Snapshot := {}
  logLevel : Option LogLevel := none
deriving DecidableEq, Repr

structure Report where
  after : Session
  result : Except Refusal Answer
  calls : List HostCall := []
  log : List LogEvent := []

namespace Session

def withStack (s : Session) (stack : Stack) : Session :=
  { s with machine := { s.machine with stack } }

def withStore (s : Session) (store : Store) : Session :=
  { s with machine := { s.machine with store } }

def answer (s : Session) (a : Answer) : Report := { after := s, result := .ok a }

def refuse (s : Session) (f : Fault) : Report := { after := s, result := .error (.fault f) }

def give (s : Session) : Except Fault Answer → Report
  | .ok a => s.answer a
  | .error f => s.refuse f

/-- Runs an operation on a memory the embedder can reach; its access comes before its own checks. -/
def onMemory (s : Session) (a : MemoryAddress) (access : Access) (act : Cell → Report) : Report :=
  match s.machine.store.cell a with
  | .error f => s.refuse f
  | .ok c =>
    if c.hold.admits access then act c else { after := s, result := .error (.busy access) }

def memoryStep (s : Session) (a : MemoryAddress) (m : Memory) (step : MemoryStep) : Report :=
  match step.run m with
  | .ok (answer, m) => (s.withStore (s.machine.store.replace a m)).answer (.memory answer)
  | .error f => s.refuse f

def ofOutcome (s : Session) (o : Outcome) : Report where
  after := { s with machine := o.machine }
  result :=
    match o.ending with
    | .returned => .ok .done
    | .trapped t => .error (.trap t)
    | .exited _ => .ok .exited
  calls := o.calls
  log := o.log

def step (s : Session) : Step → Report
  | .push v => (s.withStack (s.machine.stack.push v)).answer .done
  | .pushAll vs => (s.withStack (s.machine.stack.pushAll vs)).answer .done
  | .pop => popped s.machine.stack.pop fun v => .value (some v)
  | .popTyped type => popped (s.machine.stack.popTyped type) fun v => .value (some v)
  | .popI32 => popped s.machine.stack.popI32 fun n => .integer n.toInt
  | .peek => s.answer (.value s.machine.stack.peek)
  | .peekI32 count =>
    s.give ((s.machine.stack.peekI32 count).map fun ns => .integers ns.toList)
  | .discard count => popped ((s.machine.stack.discard count).map fun t => ((), t)) fun _ => .done
  | .heights =>
    let stack := s.machine.stack
    s.answer (.heights stack.operands.length stack.available stack.frames.length)
  | .pushFrame moduleIndex function locals base =>
    match s.modules[moduleIndex]? with
    | some guestModule =>
      (s.withStack (s.machine.stack.pushFrame ⟨guestModule, function, locals, base⟩)).answer .done
    | none => { after := s, result := .error (.unknownModule moduleIndex) }
  | .popFrame =>
    let (f, stack) := s.machine.stack.popFrame
    (s.withStack stack).answer (.frame f)
  | .currentFrame => s.give (s.machine.stack.currentFrame.map fun f => .frame (some f))
  | .snapshot => s.answer (.snapshot s.machine.stack.snapshot)
  | .saveSnapshot => { s with saved := s.machine.stack.snapshot }.answer .done
  | .sameSnapshot => s.answer (.flag (s.saved.sameNumbers s.machine.stack.snapshot))
  | .configure source =>
    match source.load with
    | .ok config => { s with config }.answer .done
    | .error f => s.refuse f
  | .addModule m => { s with modules := s.modules.push m }.answer (.integer s.modules.size)
  | .memoryCount => s.answer (.integer s.machine.store.size)
  | .allocate pages maximum =>
    match Memory.create pages maximum with
    | .ok m =>
      let (store, a) := s.machine.store.allocate m
      (s.withStore store).answer (.integer a.index)
    | .error f => s.refuse f
  | .hasMemory a => s.answer (.flag (a.index < s.machine.store.size))
  | .memory a step =>
    s.onMemory a (if step.changes then .writing else .reading) fun c =>
      s.memoryStep a c.memory step
  | .hold a access =>
    s.onMemory a access fun _ => (s.withStore (s.machine.store.hold a access)).answer .done
  | .release => (s.withStore s.machine.store.releaseAll).answer .done
  | .call number operands host =>
    let s := s.withStack (s.machine.stack.pushAll (operands.map .i32))
    s.ofOutcome (s.machine.dispatch host s.config number)
where
  popped {α : Type} (result : Except Fault (α × Stack)) (f : α → Answer) : Report :=
    match result with
    | .ok (a, stack) => (s.withStack stack).answer (f a)
    | .error fault => s.refuse fault

/-- Takes steps until they are done or the host process has ended. -/
def run (s : Session) : List Step → List Report
  | [] => []
  | step :: rest =>
    let report := s.step step
    match report.result with
    | .ok .exited => [report]
    | _ => report :: report.after.run rest

/-- What every step preserves holds throughout a run, and what every step reports is all that the
run reports. -/
theorem run_forall {I : Session → Prop} {Q : Report → Prop} {steps : List Step}
    (hstep : ∀ s, I s → ∀ step ∈ steps, Q (s.step step) ∧ I (s.step step).after) {s : Session}
    (h : I s) : ∀ report ∈ s.run steps, Q report := by
  induction steps generalizing s with
  | nil => simp [run]
  | cons step rest ih =>
    obtain ⟨hreport, hafter⟩ := hstep s h step List.mem_cons_self
    have hrest := ih (fun t ht next hmem => hstep t ht next (List.mem_cons_of_mem _ hmem)) hafter
    intro report hr
    unfold run at hr
    dsimp only at hr
    split at hr
    · rw [List.mem_singleton.mp hr]
      exact hreport
    · rcases List.mem_cons.mp hr with rfl | hr
      · exact hreport
      · exact hrest report hr

/-- The records that a session keeps, if it keeps a log at all. -/
def records (s : Session) (log : List LogEvent) : Option (List LogEvent) :=
  s.logLevel.map fun kept => log.filter fun e => kept.shows e.level

structure Setup where
  config : ConfigSource
  memories : List MemoryPlan
  modules : List GuestModule
  /-- The module of a frame to begin in. -/
  frame : Option Nat
  logLevel : Option LogLevel
deriving DecidableEq, Repr

def start (setup : Setup) : Except Refusal Session := do
  let config ← lift setup.config.load
  let memories ← lift (setup.memories.mapM MemoryPlan.build)
  let store := memories.foldl (fun store m => (store.allocate m).1) ({} : Store)
  let modules := setup.modules.toArray
  let stack ←
    match setup.frame with
    | none => .ok ({} : Stack)
    | some index =>
      match modules[index]? with
      | some guestModule => .ok (({} : Stack).pushFrame ⟨guestModule, 0, [], 0⟩)
      | none => .error (.unknownModule index)
  return { config, machine := ⟨store, stack⟩, modules, logLevel := setup.logLevel }
where
  lift {α : Type} : Except Fault α → Except Refusal α
    | .ok a => .ok a
    | .error f => .error (.fault f)

end Session

end GuestGate
