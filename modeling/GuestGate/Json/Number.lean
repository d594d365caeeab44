import GuestGate.Decimal.Shortest
import GuestGate.Json.Problem

/-!
# JSON numbers

A number without fraction and exponent that fits 64 bits is an integer. Every other number is a
double: its first digits, as many as fit 64 bits, scaled by a power of ten.
-/

namespace GuestGate.Json

inductive Number where
  | integer (n : Int)
  | float (bits : UInt64)
deriving DecidableEq, Repr

namespace Number

/-- Takes digits into a significand while it fits 64 bits; the significand, the number of digits
taken and the rest. -/
def absorb (significand : Nat) : List Char → Nat × Nat × List Char
  | [] => (significand, 0, [])
  | c :: rest =>
    let next := significand * 10 + (c.toNat - '0'.toNat)
    if c.isDigit && next < UInt64.size then
      let (s, count, rest) := absorb next rest
      (s, count + 1, rest)
    else (significand, 0, c :: rest)

/-- `f * 10 ^ exponent` in steps that a double can express. -/
def scale (f : Float) (exponent : Int) : Except Problem Float :=
  if exponent.natAbs ≤ 308 then
    let power := Float.ofScientific 1 false exponent.natAbs
    if 0 ≤ exponent then
      if (f * power).isInf then .error .numberOutOfRange else .ok (f * power)
    else .ok (f / power)
  else if f == 0 then .ok f
  else if 0 ≤ exponent then .error .numberOutOfRange
  else scale (f / 1e308) (exponent + 308)
termination_by exponent.natAbs

def scaled (significand : Nat) (exponent : Int) : Except Problem Float :=
  scale significand.toUInt64.toFloat exponent

def natural (digits : List Char) : Nat :=
  digits.foldl (fun n c => n * 10 + (c.toNat - '0'.toNat)) 0

/-- The rest of a number after its exponent mark. -/
def afterMark (significand : Nat) (start : Int) (cs : List Char) :
    Except Problem (Float × List Char) :=
  let negative := cs.head? == some '-'
  let cs := if cs.head? == some '-' || cs.head? == some '+' then cs.tail else cs
  match cs.takeWhile Char.isDigit with
  | [] => .error (if cs.isEmpty then .endInValue else .invalidNumber)
  | digits =>
    let rest := cs.dropWhile Char.isDigit
    let n := natural digits
    if 2147483648 ≤ n then
      if significand ≠ 0 && !negative then .error .numberOutOfRange else .ok (0, rest)
    else (scaled significand (if negative then start - n else start + n)).map (·, rest)

/-- The rest of a number after its digits. -/
def afterDigits (significand : Nat) (exponent : Int) : List Char → Except Problem (Float × List Char)
  | 'e' :: rest | 'E' :: rest => afterMark significand exponent rest
  | rest => (scaled significand exponent).map (·, rest)

/-- The rest of a number after its point. -/
def afterPoint (significand : Nat) (exponent : Int) (cs : List Char) :
    Except Problem (Float × List Char) :=
  let (s, count, rest) := absorb significand cs
  if !(cs.head?.any Char.isDigit) then
    .error (if cs.isEmpty then .endInValue else .invalidNumber)
  else afterDigits s (exponent - count) (rest.dropWhile Char.isDigit)

/-- An integer with its sign, if it has one that 64 bits can hold; zero has no negative. -/
def ofInteger (negative : Bool) (significand : Nat) : Number :=
  if !negative then .integer significand
  else if 0 < significand && significand ≤ 9223372036854775808 then .integer (-significand)
  else .float (-significand.toUInt64.toFloat).toBits

def ofFloat (negative : Bool) (f : Float) : Number :=
  .float (if negative then -f else f).toBits

/-- The rest of a number after as many integer digits as its significand holds. -/
def afterInteger (negative : Bool) (significand : Nat) (cs : List Char) :
    Except Problem (Number × List Char) :=
  let more := cs.takeWhile Char.isDigit
  let rest := cs.dropWhile Char.isDigit
  if more.isEmpty && !(rest.head?.any (['.', 'e', 'E'].contains ·)) then
    .ok (ofInteger negative significand, rest)
  else
    (match rest with
      | '.' :: rest => afterPoint significand more.length rest
      | rest => afterDigits significand more.length rest).map
      fun (f, rest) => (ofFloat negative f, rest)

/-- Reads a number of which only the sign is taken off, given its first character. -/
def readFrom (negative : Bool) (c : Char) (rest : List Char) :
    Except Problem (Number × List Char) :=
  if c = '0' then
    if rest.head?.any Char.isDigit then .error .invalidNumber else afterInteger negative 0 rest
  else if c.isDigit then
    let (s, _, rest) := absorb (c.toNat - '0'.toNat) rest
    afterInteger negative s rest
  else .error .invalidNumber

def readNegative : List Char → Except Problem (Number × List Char)
  | [] => .error .endInValue
  | c :: rest => readFrom true c rest

/-- Doubles from `1e-5` to below `1e16` are written without an exponent. -/
def floatStyle : Decimal.Style := ⟨-5, 15⟩

def floatText (bits : UInt64) : String :=
  let sign := if bits < 0x8000000000000000 then "" else "-"
  if bits <<< 1 = 0 then sign ++ "0.0"
  else sign ++ (Decimal.shortest (.ofBits bits)).render floatStyle

theorem length_absorb (significand : Nat) (cs : List Char) :
    (absorb significand cs).2.2.length ≤ cs.length := by
  fun_induction absorb significand cs with
  | case1 => simp
  | case2 _ c rest _ _ s count r h ih => simp [h] at ih; simp; omega
  | case3 => simp

theorem length_dropWhile (cs : List Char) (p : Char → Bool) :
    (cs.dropWhile p).length ≤ cs.length := (List.dropWhile_suffix p).length_le

theorem length_afterMark {significand : Nat} {start : Int} {cs rest : List Char} {f : Float}
    (h : afterMark significand start cs = .ok (f, rest)) : rest.length ≤ cs.length := by
  have tail : (if cs.head? == some '-' || cs.head? == some '+' then cs.tail else cs).length
      ≤ cs.length := by split <;> simp
  simp only [afterMark] at h
  generalize (if cs.head? == some '-' || cs.head? == some '+' then cs.tail else cs) = ds at h tail
  have drop := length_dropWhile ds Char.isDigit
  split at h
  · cases h
  · split at h
    · split at h
      · cases h
      · cases h; omega
    · obtain ⟨g, -, hg⟩ := ok_of_map h
      cases hg; omega

theorem length_afterDigits {significand : Nat} {e : Int} {cs rest : List Char} {f : Float}
    (h : afterDigits significand e cs = .ok (f, rest)) : rest.length ≤ cs.length := by
  unfold afterDigits at h
  split at h
  · exact Nat.le_succ_of_le (length_afterMark h)
  · exact Nat.le_succ_of_le (length_afterMark h)
  · obtain ⟨g, -, hg⟩ := ok_of_map h
    cases hg; exact Nat.le_refl _

theorem length_afterPoint {significand : Nat} {e : Int} {cs rest : List Char} {f : Float}
    (h : afterPoint significand e cs = .ok (f, rest)) : rest.length ≤ cs.length := by
  have absorbed := length_absorb significand cs
  simp only [afterPoint] at h
  split at h
  · cases h
  · exact Nat.le_trans (length_afterDigits h) (Nat.le_trans (length_dropWhile _ _) absorbed)

theorem length_afterInteger {negative : Bool} {significand : Nat} {cs rest : List Char} {n : Number}
    (h : afterInteger negative significand cs = .ok (n, rest)) : rest.length ≤ cs.length := by
  have drop := length_dropWhile cs Char.isDigit
  simp only [afterInteger] at h
  split at h
  · cases h; exact drop
  · obtain ⟨g, hg, he⟩ := ok_of_map h
    cases he
    split at hg
    · rename_i r hr
      have := length_afterPoint hg
      rw [hr, List.length_cons] at drop
      omega
    · exact Nat.le_trans (length_afterDigits hg) drop

theorem length_readFrom {negative : Bool} {c : Char} {cs rest : List Char} {n : Number}
    (h : readFrom negative c cs = .ok (n, rest)) : rest.length ≤ cs.length := by
  simp only [readFrom] at h
  split at h
  · split at h
    · cases h
    · exact length_afterInteger h
  · split at h
    · exact Nat.le_trans (length_afterInteger h) (length_absorb _ cs)
    · cases h

theorem length_readNegative {cs rest : List Char} {n : Number}
    (h : readNegative cs = .ok (n, rest)) : rest.length ≤ cs.length := by
  cases cs with
  | nil => cases h
  | cons c cs => exact Nat.le_succ_of_le (length_readFrom h)

end Number

end GuestGate.Json
