import GuestGate.Memory.Strings

/-!
# Program arguments

The strings that name a program to run, its arguments and its environment, as they lie in guest
memory and as the host wants them.
-/

namespace GuestGate

structure ExecArgs where
  filename : List UInt8
  argv : List (List UInt8)
  envp : List (List UInt8)
deriving DecidableEq, Repr

namespace ExecArgs

/-- A string as the host takes it: its first NUL would end it, so it may have none. -/
def hostString (s : List UInt8) : Except Fault (List UInt8) :=
  match s.findIdx? (· == 0) with
  | none => .ok s
  | some position => .error (.memory (.nulInString position))

def decode (m : Memory) (filename argv envp : UInt32) : Except Fault ExecArgs := do
  let filename ← hostString (← m.string filename)
  let argv ← (← m.strings argv).mapM hostString
  let envp ← (← m.strings envp).mapM hostString
  return ⟨filename, argv, envp⟩

/-- The host takes a vector as pointers to its strings and a null pointer after the last. -/
def pointers (strings : List (List UInt8)) : List (Option (List UInt8)) :=
  strings.map some ++ [none]

/-- The strings before the first null pointer, as the host finds them. -/
def scan : List (Option (List UInt8)) → List (List UInt8)
  | some s :: rest => s :: scan rest
  | _ => []

theorem length_pointers (strings : List (List UInt8)) :
    (pointers strings).length = strings.length + 1 := by simp [pointers]

theorem scan_pointers (strings : List (List UInt8)) : scan (pointers strings) = strings := by
  induction strings with
  | nil => rfl
  | cons s rest ih => simpa [pointers, scan] using ih

end ExecArgs

end GuestGate
