/-!
# Shortest decimals

A positive binary number `m * 2 ^ q` is known by the interval of reals that round to it. Among the
decimals in that interval `Decimal.shortest` takes one with the fewest digits, and of those the
nearest.
-/

namespace GuestGate

/-- The number `digits * 10 ^ exponent`. -/
structure Decimal where
  digits : Nat
  exponent : Int
deriving DecidableEq, Repr

/-- A positive number `significand * 2 ^ exponent`; `low` says that the next number below is
only half a unit away. -/
structure Binary where
  significand : Nat
  exponent : Int
  low : Bool
deriving DecidableEq, Repr

namespace Binary

/-- The magnitude of a finite, non-zero double. -/
def ofBits (bits : UInt64) : Binary :=
  let fraction := bits.toNat % 4503599627370496
  let field := (bits.toNat >>> 52) % 2048
  if field = 0 then ⟨fraction, -1074, false⟩
  else ⟨4503599627370496 + fraction, (field : Int) - 1075, fraction == 0 && field != 1⟩

/-- A quarter unit and ten to the `k`, both multiplied until they are integers. -/
def scales (x : Binary) (k : Int) : Nat × Nat :=
  (Nat.pow 10 (-k).toNat <<< (x.exponent - 2).toNat, Nat.pow 10 k.toNat <<< (2 - x.exponent).toNat)

/-- Whether `c * 10 ^ k` rounds to the number; the ends of the interval do when the significand is
even. -/
def roundsFrom (x : Binary) (k : Int) (c : Nat) : Bool :=
  let (quarter, ten) := x.scales k
  let bottom := (4 * x.significand - if x.low then 1 else 2) * quarter
  let top := (4 * x.significand + 2) * quarter
  let point := c * ten
  if x.significand % 2 = 0 then bottom ≤ point && point ≤ top
  else bottom < point && point < top

/-- The multiple of `10 ^ k` that rounds to the number and is nearest to it, the even one of two
equally near. -/
def onGrid? (x : Binary) (k : Int) : Option Nat :=
  let (quarter, ten) := x.scales k
  let value := 4 * x.significand * quarter
  let below := value / ten
  match x.roundsFrom k below, x.roundsFrom k (below + 1) with
  | false, false => none
  | true, false => some below
  | false, true => some (below + 1)
  | true, true =>
    let left := 2 * (value - below * ten)
    if left < ten then some below
    else if left > ten then some (below + 1)
    else some (if below % 2 = 0 then below else below + 1)

/-- The first grid that holds a point, looking through `steps` of them from `10 ^ k` down. -/
def firstOnGrid (x : Binary) : Nat → Int → Decimal
  | 0, k => ⟨0, k⟩
  | steps + 1, k =>
    match x.onGrid? k with
    | some c => ⟨c, k⟩
    | none => x.firstOnGrid steps (k - 1)

end Binary

/-- The exponents of ten that a double's shortest decimal can have run from 308 down to -324. -/
def Decimal.shortest (x : Binary) : Decimal := x.firstOnGrid 634 309

namespace Decimal

/-- How a decimal is written. -/
structure Style where
  /-- The least and greatest exponent of the leading digit written without an exponent. -/
  positionalFrom : Int
  positionalTo : Int
deriving DecidableEq, Repr

/-- Whole numbers keep a point and one zero, and an exponent always has its sign. -/
def render (style : Style) (d : Decimal) : String :=
  let digits := (toString d.digits).toList
  let lead := d.exponent + (digits.length : Int) - 1
  let zeros (n : Int) := List.replicate n.toNat '0'
  String.ofList <|
    if style.positionalFrom ≤ lead ∧ lead ≤ style.positionalTo then
      if lead < 0 then "0.".toList ++ zeros (-lead - 1) ++ digits
      else if 0 ≤ d.exponent then digits ++ zeros d.exponent ++ ".0".toList
      else digits.take (lead.toNat + 1) ++ '.' :: digits.drop (lead.toNat + 1)
    else
      digits.take 1 ++ (if digits.length = 1 then [] else '.' :: digits.drop 1) ++
        'e' :: (if lead < 0 then '-' else '+') :: (toString lead.natAbs).toList

end Decimal

end GuestGate
