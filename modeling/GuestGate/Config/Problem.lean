import GuestGate.Json.Number
import GuestGate.Text.Quoted

/-!
# Problems of a configuration text

Why a text is no configuration, by cause: it is no JSON, a value is out of place, a field is
unknown or comes twice, or a denied name is no syscall.
-/

namespace GuestGate.Config

/-- What stands in a place that calls for something else; a list or an object is known by its
first token. -/
inductive Found where
  | null
  | boolean (b : Bool)
  | number (n : Json.Number)
  | string (s : String)
  | sequence
  | map
deriving DecidableEq, Repr

inductive Expected where
  | config
  | boolean
  | sequence
  | string
deriving DecidableEq, Repr

inductive Problem where
  | text (p : Json.Problem)
  | misplaced (found : Found) (expected : Expected)
  | unknownField (key : String)
  | duplicateField (key : String)
  | unknownName (name : String)
deriving DecidableEq, Repr

def allowKey : String := "allow_process_control"

def denyKey : String := "deny"

def Found.message : Found → String
  | .null => "null"
  | .boolean b => s!"boolean `{b}`"
  | .number (.integer n) => s!"integer `{n}`"
  | .number (.float bits) => s!"floating point `{Json.Number.floatText bits}`"
  | .string s => s!"string {Quoted.text s}"
  | .sequence => "sequence"
  | .map => "map"

def Expected.message : Expected → String
  | .config => "struct SyscallConfig"
  | .boolean => "a boolean"
  | .sequence => "a sequence"
  | .string => "a string"

def Problem.message : Problem → String
  | .text p => p.message
  | .misplaced found expected => s!"invalid type: {found.message}, expected {expected.message}"
  | .unknownField key => s!"unknown field `{key}`, expected `{allowKey}` or `{denyKey}`"
  | .duplicateField key => s!"duplicate field `{key}`"
  | .unknownName name => s!"unknown syscall in deny list: {name}"

end GuestGate.Config
