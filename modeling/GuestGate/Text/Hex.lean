/-!
# Hexadecimal text

Lower-case digits, byte strings written two digits a byte, and naturals without leading zeros.
-/

namespace GuestGate.Hex

/-- The digit of a number below sixteen. -/
def digit (n : Nat) : Char :=
  if n < 10 then Char.ofNat (48 + n) else Char.ofNat (87 + n)

/-- The lowest `count` digits, most significant first. -/
def fixed : Nat → Nat → List Char
  | 0, _ => []
  | count + 1, n => digit ((n >>> (4 * count)) % 16) :: fixed count n

def byte (b : UInt8) : List Char := fixed 2 b.toNat

def bytes (bs : List UInt8) : List Char := bs.flatMap byte

/-- All digits, with no leading zero unless the number is zero. -/
def natural (n : Nat) : List Char :=
  if n < 16 then [digit n] else natural (n / 16) ++ [digit (n % 16)]
termination_by n

theorem length_fixed (count n : Nat) : (fixed count n).length = count := by
  induction count with
  | zero => rfl
  | succ count ih => simp [fixed, ih]

theorem length_bytes (bs : List UInt8) : (bytes bs).length = 2 * bs.length := by
  induction bs with
  | nil => rfl
  | cons b bs ih => simp [bytes, byte, length_fixed] at ih ⊢; omega

end GuestGate.Hex
