import GuestGate.Frame

/-!
# The operand stack

All operands in one stack beside the chain of frames. A frame works above its base: what lies
below belongs to the frames outside it, and reaching for it is an underflow.
-/

namespace GuestGate

structure Stack where
  /-- Top first. -/
  operands : List Value := []
  /-- Innermost first. -/
  frames : List Frame := []
deriving DecidableEq, Repr

/-- The state of a stack as a report shows it. -/
structure Snapshot where
  /-- Bottom first. -/
  values : List Value := []
  frames : Nat := 0
deriving DecidableEq, Repr

namespace Stack

def base (s : Stack) : Nat :=
  match s.frames with
  | [] => 0
  | f :: _ => f.base

/-- The number of operands that belong to the current frame. -/
def available (s : Stack) : Nat := s.operands.length - s.base

def push (s : Stack) (v : Value) : Stack := { s with operands := v :: s.operands }

def pushAll (s : Stack) (vs : List Value) : Stack := { s with operands := vs.reverse ++ s.operands }

def peek (s : Stack) : Option Value := if s.available = 0 then none else s.operands.head?

def pop (s : Stack) : Except Fault (Value × Stack) :=
  if s.available = 0 then .error .stackUnderflow
  else
    match s.operands with
    | [] => .error .stackUnderflow
    | v :: rest => .ok (v, { s with operands := rest })

/-- Takes the top operand if it has the type asked for. -/
def popTyped (s : Stack) (type : ValueType) : Except Fault (Value × Stack) :=
  match s.peek with
  | none => .error .stackUnderflow
  | some v => if v.type = type then s.pop else .error (.typeMismatch type v.type)

def popI32 (s : Stack) : Except Fault (Int32 × Stack) :=
  match s.peek with
  | none => .error .stackUnderflow
  | some (.i32 n) => s.pop.map fun (_, rest) => (n, rest)
  | some v => .error (.typeMismatch .i32 v.type)

/-- The first `count` values of a list, which have to be integers, in reverse order. The first
value that is none is reported. -/
def integers : (count : Nat) → List Value → Except Fault (Vector Int32 count)
  | 0, _ => .ok #v[]
  | _ + 1, [] => .error .stackUnderflow
  | count + 1, .i32 n :: rest => (integers count rest).map (·.push n)
  | _ + 1, v :: _ => .error (.typeMismatch .i32 v.type)

/-- The top `count` operands of the current frame in the order they were pushed. -/
def peekI32 (s : Stack) (count : Nat) : Except Fault (Vector Int32 count) :=
  if s.available < count then .error .stackUnderflow else integers count s.operands

def discard (s : Stack) (count : Nat) : Except Fault Stack :=
  if s.available < count then .error .stackUnderflow
  else .ok { s with operands := s.operands.drop count }

/-- Enters a call, whose base is the height of the stack now. -/
def pushFrame (s : Stack) (f : Frame) : Stack :=
  { s with frames := { f with base := s.operands.length } :: s.frames }

/-- Leaves the current call; its operands stay as its results. -/
def popFrame (s : Stack) : Option Frame × Stack :=
  match s.frames with
  | [] => (none, s)
  | f :: rest => (some f, { s with frames := rest })

def currentFrame (s : Stack) : Except Fault Frame :=
  match s.frames with
  | [] => .error .noFrame
  | f :: _ => .ok f

def snapshot (s : Stack) : Snapshot := ⟨s.operands.reverse, s.frames.length⟩

theorem available_le (s : Stack) : s.available ≤ s.operands.length := Nat.sub_le ..

theorem available_pushFrame (s : Stack) (f : Frame) : (s.pushFrame f).available = 0 := by
  simp [available, base, pushFrame]

theorem pushAll_eq_foldl (s : Stack) (vs : List Value) : s.pushAll vs = vs.foldl push s := by
  induction vs generalizing s with
  | nil => rfl
  | cons v vs ih => simp [← ih, pushAll, push]

theorem discard_eq_ok_iff {s t : Stack} {count : Nat} :
    s.discard count = .ok t ↔
      count ≤ s.available ∧ t = { s with operands := s.operands.drop count } := by
  unfold discard
  split
  · simp; omega
  · simp [eq_comm]; omega

theorem snapshot_values (s : Stack) : s.snapshot.values.reverse = s.operands := by simp [snapshot]

end Stack

namespace Snapshot

/-- Values joined by commas and the number of frames. -/
def text (s : Snapshot) : String :=
  "[" ++ ", ".intercalate (s.values.map Value.text) ++ s!"] in {s.frames} frame(s)"

/-- Equality with floats compared as numbers. -/
def sameNumbers (s t : Snapshot) : Bool :=
  s.frames == t.frames && s.values.length == t.values.length &&
    (s.values.zip t.values).all fun (v, w) => v.sameNumber w

end Snapshot

end GuestGate
