import GuestGate.FloatFormat

/-!
# Values

The four kinds of number a guest computes with. Floats are kept as bit patterns, so a copy never
touches a NaN payload, and `=` on values is identity of kind and bits. Numeric comparison is
`Value.sameNumber`.
-/

namespace GuestGate

inductive ValueType where
  | i32
  | i64
  | f32
  | f64
deriving DecidableEq, Repr

def ValueType.name : ValueType → String
  | .i32 => "i32"
  | .i64 => "i64"
  | .f32 => "f32"
  | .f64 => "f64"

inductive Value where
  | i32 (n : Int32)
  | i64 (n : Int64)
  | f32 (bits : UInt32)
  | f64 (bits : UInt64)
deriving DecidableEq, Repr

namespace Value

def type : Value → ValueType
  | .i32 _ => .i32
  | .i64 _ => .i64
  | .f32 _ => .f32
  | .f64 _ => .f64

def asI32? : Value → Option Int32
  | .i32 n => some n
  | _ => none

def asI64? : Value → Option Int64
  | .i64 n => some n
  | _ => none

def asF32? : Value → Option UInt32
  | .f32 bits => some bits
  | _ => none

def asF64? : Value → Option UInt64
  | .f64 bits => some bits
  | _ => none

/-- The payload, zero-extended when it has 32 bits. -/
def bits : Value → UInt64
  | .i32 n => n.toUInt32.toUInt64
  | .i64 n => n.toUInt64
  | .f32 bits => bits.toUInt64
  | .f64 bits => bits

/-- Same kind and same number: floats compare as numbers, so a NaN differs from itself and the two
zeros agree. -/
def sameNumber : Value → Value → Bool
  | .i32 a, .i32 b => a == b
  | .i64 a, .i64 b => a == b
  | .f32 a, .f32 b => FloatFormat.single.sameNumber a.toNat b.toNat
  | .f64 a, .f64 b => FloatFormat.double.sameNumber a.toNat b.toNat
  | _, _ => false

/-- Kind and payload, integers in decimal and floats as hexadecimal literals. -/
def text : Value → String
  | .i32 n => s!"i32:{n.toInt}"
  | .i64 n => s!"i64:{n.toInt}"
  | .f32 bits => "f32:" ++ String.ofList (FloatFormat.single.literal bits.toNat)
  | .f64 bits => "f64:" ++ String.ofList (FloatFormat.double.literal bits.toNat)

theorem asI32?_eq_some_iff {v : Value} {n : Int32} : v.asI32? = some n ↔ v = .i32 n := by
  cases v <;> simp [asI32?]

theorem type_eq_i32_iff {v : Value} : v.type = .i32 ↔ ∃ n, v = .i32 n := by
  cases v <;> simp [type]

theorem type_eq_of_sameNumber {v w : Value} (h : v.sameNumber w = true) : v.type = w.type := by
  cases v <;> cases w <;> simp_all [sameNumber, type]

theorem eq_of_type_eq_of_bits_eq {v w : Value} (ht : v.type = w.type) (hb : v.bits = w.bits) :
    v = w := by
  cases v <;> cases w <;> simp [type] at ht <;> simp [bits, UInt32.toUInt64_inj] at hb
  case i32.i32 m n => cases m; cases n; simpa using hb
  case i64.i64 m n => cases m; cases n; simpa using hb
  all_goals simpa using hb

end Value

/-- Parameters and results in order. -/
structure FunctionType where
  parameters : List ValueType := []
  results : List ValueType := []
deriving DecidableEq, Repr

def FunctionType.text (t : FunctionType) : String :=
  let list (types : List ValueType) := " ".intercalate (types.map ValueType.name)
  s!"(func (param {list t.parameters}) (result {list t.results}))"

end GuestGate
