import GuestGate.NameSet
import GuestGate.Syscall

/-!
# Configuration

Which syscalls a guest may reach. Those that control the process need the flag, and no denied name
is permitted whatever the flag says.
-/

namespace GuestGate

structure Config where
  allowProcessControl : Bool := false
  deny : NameSet := ∅
deriving DecidableEq, Repr

namespace Config

def permissive : Config := ⟨true, ∅⟩

def withProcessControl (c : Config) (allow : Bool) : Config := { c with allowProcessControl := allow }

def denying (c : Config) (s : Syscall) : Config := { c with deny := c.deny.insert s.name }

/-- A step in building a configuration. -/
inductive BuilderCall where
  | allowProcessControl (allow : Bool)
  | deny (s : Syscall)
deriving DecidableEq, Repr

def BuilderCall.apply (c : Config) : BuilderCall → Config
  | .allowProcessControl allow => c.withProcessControl allow
  | .deny s => c.denying s

def build (calls : List BuilderCall) : Config := calls.foldl BuilderCall.apply {}

def permits (c : Config) (s : Syscall) : Bool :=
  !(s.controlsProcess && !c.allowProcessControl) && s.name ∉ c.deny

theorem permits_iff {c : Config} {s : Syscall} :
    c.permits s = true ↔ (s.controlsProcess = true → c.allowProcessControl = true) ∧
      s.name ∉ c.deny := by
  unfold permits
  cases s.controlsProcess <;> cases c.allowProcessControl <;> simp

theorem permits_denying {c : Config} {s t : Syscall} :
    (c.denying s).permits t = true ↔ c.permits t = true ∧ t ≠ s := by
  have : t.name = s.name ↔ t = s := ⟨Syscall.name_injective, fun h => h ▸ rfl⟩
  simp [permits_iff, denying, NameSet.mem_insert, this, and_assoc, and_comm]

end Config

end GuestGate
