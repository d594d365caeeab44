/-!
# Reading characters from bytes

A byte string is a run of encoded characters and of bytes that encode nothing. `Utf8.next` takes
one of either from the front.
-/

namespace GuestGate.Utf8

/-- The six payload bits of a continuation byte. -/
def continuation? (b : UInt8) : Option Nat :=
  if 0x80 ≤ b && b < 0xC0 then some (b.toNat - 0x80) else none

/-- The character of a lead byte's payload and the continuation payloads after it, if it is a
scalar value that needs at least `least`. -/
def scalar? (least : Nat) (n : Nat) : Option Char :=
  if least ≤ n then
    if h : n.isValidChar then some (Char.ofNatAux n h) else none
  else none

/-- The character encoded at the front, and how many bytes it takes. -/
def decode? : List UInt8 → Option (Char × Nat)
  | [] => none
  | a :: rest =>
    if a < 0x80 then some (Char.ofNat a.toNat, 1)
    else if 0xC0 ≤ a && a < 0xE0 then do
      let b ← rest.head? >>= continuation?
      let c ← scalar? 0x80 ((a.toNat - 0xC0) * 64 + b)
      return (c, 2)
    else if 0xE0 ≤ a && a < 0xF0 then do
      let b ← rest.head? >>= continuation?
      let c ← rest[1]? >>= continuation?
      let d ← scalar? 0x800 ((a.toNat - 0xE0) * 4096 + b * 64 + c)
      return (d, 3)
    else if 0xF0 ≤ a && a < 0xF8 then do
      let b ← rest.head? >>= continuation?
      let c ← rest[1]? >>= continuation?
      let d ← rest[2]? >>= continuation?
      let e ← scalar? 0x10000 ((a.toNat - 0xF0) * 262144 + b * 4096 + c * 64 + d)
      return (e, 4)
    else none

/-- A character, or a byte that starts none. -/
inductive Unit where
  | character (c : Char)
  | byte (b : UInt8)
deriving DecidableEq, Repr

/-- The whole byte string in characters and stray bytes. -/
def units : List UInt8 → List Unit
  | [] => []
  | a :: rest =>
    match decode? (a :: rest) with
    | some (c, count) => .character c :: units (rest.drop (count - 1))
    | none => .byte a :: units rest
termination_by bs => bs.length
decreasing_by all_goals simp; try omega

end GuestGate.Utf8
