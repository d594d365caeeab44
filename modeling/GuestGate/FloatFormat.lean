import GuestGate.Text.Hex

/-!
# Binary interchange formats

A floating-point payload is a bit pattern. A `FloatFormat` cuts it into sign, exponent and
fraction, says when two patterns are the same number, and writes a pattern as a hexadecimal
literal.
-/

namespace GuestGate

structure FloatFormat where
  exponentBits : Nat
  fractionBits : Nat
  /-- The most fraction digits a literal shows. -/
  maxNybbles : Nat
deriving DecidableEq, Repr

namespace FloatFormat

def single : FloatFormat := ⟨8, 23, 6⟩

def double : FloatFormat := ⟨11, 52, 15⟩

def width (f : FloatFormat) : Nat := 1 + f.exponentBits + f.fractionBits

def bias (f : FloatFormat) : Nat := (1 <<< (f.exponentBits - 1)) - 1

def fraction (f : FloatFormat) (bits : Nat) : Nat := bits % (1 <<< f.fractionBits)

def exponentField (f : FloatFormat) (bits : Nat) : Nat :=
  (bits >>> f.fractionBits) % (1 <<< f.exponentBits)

def isNegative (f : FloatFormat) (bits : Nat) : Bool :=
  (bits >>> (f.exponentBits + f.fractionBits)) % 2 == 1

/-- The exponent field of infinities and NaNs. -/
def isSpecial (f : FloatFormat) (bits : Nat) : Bool :=
  f.exponentField bits == (1 <<< f.exponentBits) - 1

def isNan (f : FloatFormat) (bits : Nat) : Bool := f.isSpecial bits && f.fraction bits != 0

def isZero (f : FloatFormat) (bits : Nat) : Bool :=
  f.exponentField bits == 0 && f.fraction bits == 0

/-- Equality of the numbers meant: a NaN equals nothing and both zeros are one number. -/
def sameNumber (f : FloatFormat) (a b : Nat) : Bool :=
  !f.isNan a && !f.isNan b && (a == b || f.isZero a && f.isZero b)

/-- Digits of a word of `width` bits from the top, at most `limit` of them, until only zeros
remain. -/
def nybbles (width : Nat) : Nat → Nat → List Char
  | 0, _ => []
  | limit + 1, word =>
    if word = 0 then []
    else Hex.digit (word >>> (width - 4)) :: nybbles width limit ((word <<< 4) % (1 <<< width))

/-- The fraction at the top of a word together with the exponent, with the leading one of a
subnormal shifted out. -/
def normalized (f : FloatFormat) (bits : Nat) : Nat × Int :=
  let word := f.fraction bits <<< (f.width - f.fractionBits)
  if f.exponentField bits = 0 then
    let zeros := f.width - 1 - word.log2
    ((word <<< (zeros + 1)) % (1 <<< f.width), -(f.bias : Int) - zeros)
  else
    (word, (f.exponentField bits : Int) - f.bias)

def exponentText (e : Int) : List Char :=
  'p' :: (if 0 ≤ e then '+' else '-') :: (toString e.natAbs).toList

/-- What follows the sign: `inf`, `nan` with any payload but the quiet default, or the value in
hexadecimal with a binary exponent. -/
def magnitude (f : FloatFormat) (bits : Nat) : List Char :=
  let fraction := f.fraction bits
  if f.isSpecial bits then
    if fraction = 0 then "inf".toList
    else if fraction = 1 <<< (f.fractionBits - 1) then "nan".toList
    else "nan:0x".toList ++ Hex.natural fraction
  else if f.isZero bits then "0x0p+0".toList
  else
    let (word, exponent) := f.normalized bits
    let digits := nybbles f.width f.maxNybbles word
    "0x1".toList ++ (if word = 0 then [] else '.' :: digits) ++ exponentText exponent

def literal (f : FloatFormat) (bits : Nat) : List Char :=
  if f.isNegative bits then '-' :: f.magnitude bits else f.magnitude bits

theorem sameNumber_comm (f : FloatFormat) (a b : Nat) : f.sameNumber a b = f.sameNumber b a := by
  unfold sameNumber
  rw [Bool.and_comm (!f.isNan a), Bool.and_comm (f.isZero a), BEq.comm (a := a)]

theorem sameNumber_self (f : FloatFormat) (a : Nat) : f.sameNumber a a = !f.isNan a := by
  simp [sameNumber]

end FloatFormat

end GuestGate
