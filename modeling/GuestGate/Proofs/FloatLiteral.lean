import GuestGate.FloatFormat
import GuestGate.Proofs.Spelling
import Mathlib.Algebra.Order.Field.Power
import Mathlib.Algebra.Order.Field.Rat
import Mathlib.Tactic.FieldSimp
import Mathlib.Tactic.Positivity
import Mathlib.Tactic.Ring

/-!
# Reading hexadecimal literals of floats

What a bit pattern means, and what a literal says. Reading the literal of a pattern gives back what
the pattern means: the sign of a zero, the exact number of a finite one, and the payload of a NaN.
The first digit of a subnormal's literal is the leading one that was shifted out, and the digits end
before the limit does, so no bit is lost.
-/

namespace GuestGate

/-- What a bit pattern means: a number with its sign apart, since zero has two, an infinity, or a
NaN with its payload, where the quiet default counts as none. -/
inductive FloatMeaning where
  | finite (negative : Bool) (amount : ℚ)
  | infinite (negative : Bool)
  | nan (negative : Bool) (payload : Option Nat)
deriving DecidableEq

namespace FloatFormat

/-- The absolute value of a finite pattern. -/
def amount (f : FloatFormat) (bits : Nat) : ℚ :=
  if f.exponentField bits = 0 then
    f.fraction bits * 2 ^ (1 - (f.bias : ℤ) - f.fractionBits)
  else
    (2 ^ f.fractionBits + f.fraction bits) *
      2 ^ ((f.exponentField bits : ℤ) - f.bias - f.fractionBits)

/-- What a NaN carries besides being the quiet default. -/
def payload? (f : FloatFormat) (bits : Nat) : Option Nat :=
  if f.fraction bits = 1 <<< (f.fractionBits - 1) then none else some (f.fraction bits)

def meaning (f : FloatFormat) (bits : Nat) : FloatMeaning :=
  if f.isSpecial bits then
    if f.fraction bits = 0 then .infinite (f.isNegative bits)
    else .nan (f.isNegative bits) (f.payload? bits)
  else .finite (f.isNegative bits) (f.amount bits)

end FloatFormat

namespace FloatLiteral

open Json.Quoted (HexDigit hexDigit_digit hexValue? hexValue?_eq_some_iff)

/-- The number that the digits after the point stand for. -/
def fraction? : List Char → Option ℚ
  | [] => some 0
  | c :: cs => do
    let d ← hexValue? c
    let rest ← fraction? cs
    return ((d : ℚ) + rest) / 16

def natural? (cs : List Char) : Option Nat :=
  cs.foldlM (fun n c => (hexValue? c).map (16 * n + ·)) 0

def decimal? (cs : List Char) : Option Nat :=
  if cs.all Char.isDigit then some (Nat.ofDigitChars 10 cs 0) else none

/-- A sign and decimal digits. -/
def exponent? : List Char → Option ℤ
  | '+' :: cs => (decimal? cs).map fun n : Nat => (n : ℤ)
  | '-' :: cs => (decimal? cs).map fun n : Nat => -(n : ℤ)
  | _ => none

/-- A digit, and after a point any number of digits. -/
def mantissa? : List Char → Option ℚ
  | [c] => (hexValue? c).map fun d : Nat => (d : ℚ)
  | c :: '.' :: digits => do
    let d ← hexValue? c
    let rest ← fraction? digits
    return (d : ℚ) + rest
  | _ => none

/-- A mantissa and a power of two. -/
def number? (cs : List Char) : Option ℚ := do
  let m ← mantissa? (cs.takeWhile (· ≠ 'p'))
  let e ← exponent? (cs.dropWhile (· ≠ 'p')).tail
  return m * 2 ^ e

def unsigned? (negative : Bool) : List Char → Option FloatMeaning
  | '0' :: 'x' :: cs => (number? cs).map (.finite negative)
  | ['i', 'n', 'f'] => some (.infinite negative)
  | ['n', 'a', 'n'] => some (.nan negative none)
  | 'n' :: 'a' :: 'n' :: ':' :: '0' :: 'x' :: cs =>
    (natural? cs).map fun n => .nan negative (some n)
  | _ => none

/-- What a literal says. -/
def read? : List Char → Option FloatMeaning
  | '-' :: cs => unsigned? true cs
  | cs => unsigned? false cs

theorem hexValue?_digit {n : Nat} (h : n < 16) : hexValue? (Hex.digit n) = some n :=
  hexValue?_eq_some_iff.mpr (hexDigit_digit h)

theorem digit_ne {n : Nat} (h : n < 16) {c : Char} (hc : hexValue? c = none) :
    Hex.digit n ≠ c := by
  intro he
  rw [← he, hexValue?_digit h] at hc
  cases hc

/-! ### The digits of a word -/

section

variable {width limit word : Nat}

/-- The digit on top of a word, and what is left of the word below it. -/
theorem top_digit (hw : 4 ≤ width) (h : word < 2 ^ width) :
    word >>> (width - 4) < 16 ∧
      word * 16 = word >>> (width - 4) * 2 ^ width + (word <<< 4) % (1 <<< width) := by
  have hpow : 2 ^ width = 16 * 2 ^ (width - 4) := by
    rw [show (16 : Nat) = 2 ^ 4 from rfl, ← Nat.pow_add, Nat.add_sub_cancel' hw]
  have hquot : word / 2 ^ (width - 4) = word * 16 / 2 ^ width := by
    rw [hpow, Nat.mul_comm 16, Nat.mul_div_mul_right _ _ (by omega)]
  rw [Nat.shiftRight_eq_div_pow, Nat.shiftLeft_eq, Nat.one_shiftLeft]
  constructor
  · rw [Nat.div_lt_iff_lt_mul (Nat.two_pow_pos _), ← hpow]
    exact h
  · rw [hquot, Nat.mul_comm (_ / _)]
    exact (Nat.div_add_mod _ _).symm

/-- Digits from the top say the whole word if its lowest bits, for which there is no room, are
zero. -/
theorem fraction?_nybbles (hw : 4 ≤ width) (h : word < 2 ^ width)
    (hroom : 2 ^ width ∣ word * 16 ^ limit) :
    fraction? (FloatFormat.nybbles width limit word) = some ((word : ℚ) / 2 ^ width) := by
  induction limit generalizing word with
  | zero =>
    have hzero : word = 0 := by
      rw [Nat.pow_zero, Nat.mul_one] at hroom
      exact Nat.eq_zero_of_dvd_of_lt hroom h
    simp [FloatFormat.nybbles, fraction?, hzero]
  | succ limit ih =>
    by_cases hzero : word = 0
    · simp [FloatFormat.nybbles, fraction?, hzero]
    obtain ⟨htop, hsplit⟩ := top_digit hw h
    have hnext : (word <<< 4) % (1 <<< width) < 2 ^ width := by
      rw [Nat.one_shiftLeft]
      exact Nat.mod_lt _ (Nat.two_pow_pos _)
    have hroom' : 2 ^ width ∣ (word <<< 4) % (1 <<< width) * 16 ^ limit := by
      have hsum : word * 16 ^ (limit + 1) = word >>> (width - 4) * 16 ^ limit * 2 ^ width +
          (word <<< 4) % (1 <<< width) * 16 ^ limit := by
        rw [Nat.pow_succ', ← Nat.mul_assoc, hsplit]
        ring
      rw [hsum] at hroom
      exact (Nat.dvd_add_right (Dvd.intro_left _ rfl)).mp hroom
    have hsum : word >>> (width - 4) * 2 ^ width + (word <<< 4) % (1 <<< width) = 16 * word := by
      rw [Nat.mul_comm 16, hsplit]
    have hpos : (2 : ℚ) ^ width ≠ 0 := by positivity
    rw [FloatFormat.nybbles, if_neg hzero, fraction?, hexValue?_digit htop, ih hnext hroom']
    simp only [Option.bind_eq_bind, Option.bind_some, Option.pure_def, Option.some.injEq]
    field_simp
    exact_mod_cast hsum

end

/-! ### The parts of a literal -/

theorem decimal?_digits (n : Nat) : decimal? (toString n).toList = some n := by
  have hdigits : (Nat.toDigits 10 n).all Char.isDigit = true :=
    List.all_eq_true.mpr fun _ hc => Nat.isDigit_of_mem_toDigits (by decide) (by decide) hc
  rw [Nat.toString_eq_repr, Nat.toList_repr, decimal?, if_pos hdigits, Nat.ofDigitChars_ten_toDigits]

theorem exponent?_exponentText (e : ℤ) : exponent? (FloatFormat.exponentText e).tail = some e := by
  unfold FloatFormat.exponentText
  by_cases h : 0 ≤ e
  · rw [if_pos h, List.tail_cons, exponent?, decimal?_digits, Option.map_some, Int.natAbs_of_nonneg h]
  · have habs : (e.natAbs : ℤ) = -e := Int.ofNat_natAbs_of_nonpos (by omega)
    rw [if_neg h, List.tail_cons, exponent?, decimal?_digits, Option.map_some, habs, neg_neg]

theorem natural?_append (cs : List Char) {c : Char} {n d : Nat} (h : natural? cs = some n)
    (hd : hexValue? c = some d) : natural? (cs ++ [c]) = some (16 * n + d) := by
  rw [natural?] at h
  simp [natural?, List.foldlM_append, h, hd]

theorem natural?_natural (n : Nat) : natural? (Hex.natural n) = some n := by
  fun_induction Hex.natural n with
  | case1 n h => simp [natural?, hexValue?_digit h]
  | case2 n h ih =>
    have hd : n % 16 < 16 := Nat.mod_lt _ (by decide)
    rw [natural?_append _ ih (hexValue?_digit hd), Nat.div_add_mod]

/-- The digits of a word are no letter that ends a mantissa. -/
theorem not_mem_nybbles {width limit word : Nat} (hw : 4 ≤ width) (h : word < 2 ^ width) {c : Char}
    (hc : hexValue? c = none) : c ∉ FloatFormat.nybbles width limit word := by
  induction limit generalizing word with
  | zero => simp [FloatFormat.nybbles]
  | succ limit ih =>
    unfold FloatFormat.nybbles
    split
    · simp
    · have hnext : (word <<< 4) % (1 <<< width) < 2 ^ width := by
        rw [Nat.one_shiftLeft]
        exact Nat.mod_lt _ (Nat.two_pow_pos _)
      rw [List.mem_cons, not_or]
      exact ⟨(digit_ne (top_digit hw h).1 hc).symm, ih hnext⟩

theorem number?_of_parts {m : List Char} (hm : 'p' ∉ m) (e : ℤ) :
    number? (m ++ FloatFormat.exponentText e) = (mantissa? m).map (· * 2 ^ e) := by
  have hpower : FloatFormat.exponentText e = 'p' :: (FloatFormat.exponentText e).tail := rfl
  have hplain : ∀ c ∈ m, decide (c ≠ 'p') = true := by
    intro c hc
    exact decide_eq_true fun he => hm (he ▸ hc)
  have htake : (m ++ FloatFormat.exponentText e).takeWhile (· ≠ 'p') = m := by
    rw [List.takeWhile_append_of_pos hplain, hpower, List.takeWhile_cons_of_neg (by decide),
      List.append_nil]
  have hdrop : (m ++ FloatFormat.exponentText e).dropWhile (· ≠ 'p') =
      FloatFormat.exponentText e := by
    rw [List.dropWhile_append_of_pos hplain, hpower, List.dropWhile_cons_of_neg (by decide)]
  rw [number?, htake, hdrop, exponent?_exponentText]
  cases mantissa? m <;> rfl

end FloatLiteral

namespace FloatFormat

variable {f : FloatFormat} {bits : Nat}

/-- A format whose literals have room for every fraction. -/
structure Roomy (f : FloatFormat) : Prop where
  digits : f.fractionBits ≤ 4 * f.maxNybbles
  width : 4 ≤ f.width

theorem single_roomy : single.Roomy := ⟨by decide, by decide⟩

theorem double_roomy : double.Roomy := ⟨by decide, by decide⟩

theorem fraction_lt (f : FloatFormat) (bits : Nat) : f.fraction bits < 2 ^ f.fractionBits := by
  rw [fraction, Nat.one_shiftLeft]
  exact Nat.mod_lt _ (Nat.two_pow_pos _)

theorem fractionBits_lt_width (f : FloatFormat) : f.fractionBits < f.width := by
  rw [width]
  omega

/-- The fraction at the top of a word. -/
def topWord (f : FloatFormat) (bits : Nat) : Nat := f.fraction bits <<< (f.width - f.fractionBits)

theorem topWord_eq (f : FloatFormat) (bits : Nat) :
    f.topWord bits = f.fraction bits * 2 ^ (f.width - f.fractionBits) := Nat.shiftLeft_eq ..

theorem width_split (f : FloatFormat) :
    2 ^ f.width = 2 ^ f.fractionBits * 2 ^ (f.width - f.fractionBits) := by
  rw [← Nat.pow_add, Nat.add_sub_cancel' (Nat.le_of_lt f.fractionBits_lt_width)]

theorem topWord_lt (f : FloatFormat) (bits : Nat) : f.topWord bits < 2 ^ f.width := by
  rw [topWord_eq, width_split]
  exact Nat.mul_lt_mul_of_pos_right (f.fraction_lt bits) (Nat.two_pow_pos _)

/-- All digits of the fraction lie above the lowest bits that there is no room for. -/
theorem Roomy.dvd (h : f.Roomy) (bits : Nat) : 2 ^ f.width ∣ f.topWord bits * 16 ^ f.maxNybbles := by
  have hlt := f.fractionBits_lt_width
  have hdigits := h.digits
  rw [topWord_eq, show (16 : Nat) = 2 ^ 4 from rfl, ← Nat.pow_mul, Nat.mul_assoc, ← Nat.pow_add]
  exact Dvd.dvd.mul_left (Nat.pow_dvd_pow 2 (by omega)) _

theorem dvd_mod_mul {a c n : Nat} (h : n ∣ a * c) : n ∣ a % n * c := by
  apply Nat.dvd_of_mod_eq_zero
  rw [Nat.mul_mod, Nat.mod_mod, ← Nat.mul_mod]
  exact Nat.mod_eq_zero_of_dvd h

theorem normalized_of_normal (h : f.exponentField bits ≠ 0) :
    f.normalized bits = (f.topWord bits, (f.exponentField bits : ℤ) - f.bias) := by
  rw [normalized, if_neg h]
  rfl

theorem topWord_ne_zero (hf : f.fraction bits ≠ 0) : f.topWord bits ≠ 0 := by
  rw [topWord_eq]
  exact Nat.mul_ne_zero hf (Nat.ne_of_gt (Nat.two_pow_pos _))

/-- A subnormal fraction moves up until its leading one is out of the word. -/
theorem normalized_of_subnormal (h : f.exponentField bits = 0) (hf : f.fraction bits ≠ 0) :
    ∃ n : Nat, n < f.width ∧
      (f.normalized bits).1 = f.topWord bits * 2 ^ (f.width - n) % 2 ^ f.width ∧
      (f.normalized bits).1 + 2 ^ f.width = f.topWord bits * 2 ^ (f.width - n) ∧
      (f.normalized bits).2 = -(f.bias : ℤ) - (f.width - 1 - n : ℕ) := by
  have hword := topWord_ne_zero hf
  have hn : (f.topWord bits).log2 < f.width := (Nat.log2_lt hword).mpr (f.topWord_lt bits)
  have hleading : 2 ^ (f.topWord bits).log2 * 2 ^ (f.width - (f.topWord bits).log2) =
      2 ^ f.width := by
    rw [← Nat.pow_add, Nat.add_sub_cancel' (Nat.le_of_lt hn)]
  have hlow : 2 ^ f.width ≤ f.topWord bits * 2 ^ (f.width - (f.topWord bits).log2) := by
    rw [← hleading]
    exact Nat.mul_le_mul_right _ (Nat.log2_self_le hword)
  have hhigh : f.topWord bits * 2 ^ (f.width - (f.topWord bits).log2) < 2 * 2 ^ f.width := by
    rw [← hleading, ← Nat.mul_assoc, Nat.mul_comm 2, ← Nat.pow_succ]
    exact Nat.mul_lt_mul_of_pos_right Nat.lt_log2_self (Nat.two_pow_pos _)
  have hnormal : f.normalized bits = (f.topWord bits * 2 ^ (f.width - (f.topWord bits).log2) %
      2 ^ f.width, -(f.bias : ℤ) - (f.width - 1 - (f.topWord bits).log2 : ℕ)) := by
    have hshift : f.width - 1 - (f.topWord bits).log2 + 1 = f.width - (f.topWord bits).log2 := by
      omega
    rw [normalized, if_pos h, ← hshift, ← Nat.shiftLeft_eq, ← Nat.one_shiftLeft]
    rfl
  refine ⟨(f.topWord bits).log2, hn, by rw [hnormal], ?_, by rw [hnormal]⟩
  rw [hnormal, Nat.mod_eq_sub_mod hlow, Nat.mod_eq_of_lt (by omega), Nat.sub_add_cancel hlow]

/-- A word that fits, has all its digits above what there is no room for, and means the amount
with a leading one and the exponent. -/
structure Normalizes (f : FloatFormat) (bits word : Nat) (e : ℤ) : Prop where
  fits : word < 2 ^ f.width
  room : 2 ^ f.width ∣ word * 16 ^ f.maxNybbles
  amount : (1 + (word : ℚ) / 2 ^ f.width) * 2 ^ e = f.amount bits

theorem amount_of_normal (h : f.exponentField bits ≠ 0) :
    (1 + (f.topWord bits : ℚ) / 2 ^ f.width) * 2 ^ ((f.exponentField bits : ℤ) - f.bias) =
      f.amount bits := by
  have hsplit : (2 : ℚ) ^ f.width = 2 ^ f.fractionBits * 2 ^ (f.width - f.fractionBits) := by
    exact_mod_cast f.width_split
  rw [FloatFormat.amount, if_neg h, topWord_eq, hsplit, zpow_sub₀ (by norm_num) _ (f.fractionBits : ℤ),
    zpow_natCast]
  push_cast
  field_simp

theorem amount_of_subnormal {n word : Nat} (h : f.exponentField bits = 0) (hn : n < f.width)
    (hword : word + 2 ^ f.width = f.topWord bits * 2 ^ (f.width - n)) :
    (1 + (word : ℚ) / 2 ^ f.width) * 2 ^ (-(f.bias : ℤ) - (f.width - 1 - n : ℕ)) =
      f.amount bits := by
  have hcast : (word : ℚ) + 2 ^ f.width = f.topWord bits * 2 ^ (f.width - n) := by
    exact_mod_cast hword
  have hlt := f.fractionBits_lt_width
  have htwo : (2 : ℚ) ≠ 0 := by norm_num
  have hlead : 1 + (word : ℚ) / 2 ^ f.width =
      f.topWord bits * 2 ^ (f.width - n) / 2 ^ f.width := by
    rw [← hcast]
    field_simp
    ring
  have hexponents : ((f.width - f.fractionBits : ℕ) : ℤ) + (f.width - n : ℕ) + -(f.width : ℤ) +
      (-(f.bias : ℤ) - (f.width - 1 - n : ℕ)) = 1 - f.bias - f.fractionBits := by
    omega
  calc (1 + (word : ℚ) / 2 ^ f.width) * 2 ^ (-(f.bias : ℤ) - (f.width - 1 - n : ℕ))
      = f.fraction bits * (2 ^ ((f.width - f.fractionBits : ℕ) : ℤ) * 2 ^ ((f.width - n : ℕ) : ℤ) *
          2 ^ (-(f.width : ℤ)) * 2 ^ (-(f.bias : ℤ) - (f.width - 1 - n : ℕ))) := by
        rw [hlead, topWord_eq, zpow_natCast, zpow_natCast, zpow_neg, zpow_natCast]
        push_cast
        ring
    _ = f.fraction bits * 2 ^ (1 - (f.bias : ℤ) - f.fractionBits) := by
        rw [← zpow_add₀ htwo, ← zpow_add₀ htwo, ← zpow_add₀ htwo, hexponents]
    _ = f.amount bits := by rw [FloatFormat.amount, if_pos h]

theorem Roomy.normalizes (h : f.Roomy) (hz : f.isZero bits = false) :
    f.Normalizes bits (f.normalized bits).1 (f.normalized bits).2 := by
  by_cases he : f.exponentField bits = 0
  · have hf : f.fraction bits ≠ 0 := by
      intro hf
      simp [isZero, he, hf] at hz
    obtain ⟨n, hn, hword, hsum, hexp⟩ := normalized_of_subnormal he hf
    refine ⟨?_, ?_, ?_⟩
    · rw [hword]
      exact Nat.mod_lt _ (Nat.two_pow_pos _)
    · rw [hword]
      refine dvd_mod_mul ?_
      rw [Nat.mul_right_comm]
      exact Dvd.dvd.mul_right (h.dvd bits) _
    · rw [hexp]
      exact amount_of_subnormal he hn hsum
  · rw [normalized_of_normal he]
    exact ⟨f.topWord_lt bits, h.dvd bits, amount_of_normal he⟩

/-! ### Reading back what is written -/

/-- The digits of a number that is not zero, up to its exponent. -/
def mantissaText (f : FloatFormat) (word : Nat) : List Char :=
  '1' :: if word = 0 then [] else '.' :: nybbles f.width f.maxNybbles word

theorem magnitude_of_finite (hs : f.isSpecial bits = false) (hz : f.isZero bits = false) :
    f.magnitude bits = '0' :: 'x' ::
      (f.mantissaText (f.normalized bits).1 ++ exponentText (f.normalized bits).2) := by
  unfold magnitude
  rw [if_neg (Bool.not_eq_true _ ▸ hs), if_neg (Bool.not_eq_true _ ▸ hz)]
  rfl

theorem Roomy.mantissa?_mantissaText {word : Nat} (h : f.Roomy) (hfits : word < 2 ^ f.width)
    (hroom : 2 ^ f.width ∣ word * 16 ^ f.maxNybbles) :
    FloatLiteral.mantissa? (f.mantissaText word) = some (1 + (word : ℚ) / 2 ^ f.width) := by
  have hone : Json.Quoted.hexValue? '1' = some 1 := rfl
  unfold mantissaText
  by_cases hword : word = 0
  · simp [hword, FloatLiteral.mantissa?, hone]
  · rw [if_neg hword, FloatLiteral.mantissa?, hone, FloatLiteral.fraction?_nybbles h.width hfits hroom]
    simp

theorem Roomy.not_mem_mantissaText {word : Nat} {c : Char} (h : f.Roomy) (hfits : word < 2 ^ f.width)
    (hc : Json.Quoted.hexValue? c = none) (hpoint : c ≠ '.') : c ∉ f.mantissaText word := by
  have hdigits : c ∉ nybbles f.width f.maxNybbles word :=
    FloatLiteral.not_mem_nybbles h.width hfits hc
  have hone : c ≠ '1' := by
    rintro rfl
    cases hc
  unfold mantissaText
  split
  · simp [hone]
  · simp [hone, hpoint, hdigits]

theorem Roomy.number?_finite (h : f.Roomy) (hz : f.isZero bits = false) :
    FloatLiteral.number? (f.mantissaText (f.normalized bits).1 ++
      exponentText (f.normalized bits).2) = some (f.amount bits) := by
  have hn := h.normalizes hz
  have hp := h.not_mem_mantissaText hn.fits (c := 'p') rfl (by decide)
  rw [FloatLiteral.number?_of_parts hp, h.mantissa?_mantissaText hn.fits hn.room, Option.map_some,
    hn.amount]

theorem amount_of_isZero (h : f.isZero bits = true) : f.amount bits = 0 := by
  simp only [isZero, Bool.and_eq_true, beq_iff_eq] at h
  simp [FloatFormat.amount, h.1, h.2]

theorem number?_zero : FloatLiteral.number? "0p+0".toList = some 0 := by
  have hdigit : FloatLiteral.mantissa? ['0'] = some ((0 : ℕ) : ℚ) := rfl
  change FloatLiteral.number? (['0'] ++ exponentText 0) = some 0
  rw [FloatLiteral.number?_of_parts (by decide), hdigit, Option.map_some, Nat.cast_zero, zero_mul]

theorem unsigned?_of_special (negative : Bool) (hs : f.isSpecial bits = true) :
    FloatLiteral.unsigned? negative (f.magnitude bits) =
      some (if f.fraction bits = 0 then .infinite negative else .nan negative (f.payload? bits)) := by
  unfold magnitude
  rw [if_pos hs]
  by_cases hf : f.fraction bits = 0
  · rw [if_pos hf, if_pos hf]
    rfl
  · rw [if_neg hf, if_neg hf, payload?]
    by_cases hq : f.fraction bits = 1 <<< (f.fractionBits - 1)
    · rw [if_pos hq, if_pos hq]
      rfl
    · rw [if_neg hq, if_neg hq]
      change (FloatLiteral.natural? (Hex.natural (f.fraction bits))).map _ = _
      rw [FloatLiteral.natural?_natural, Option.map_some]

theorem Roomy.unsigned?_of_finite (h : f.Roomy) (negative : Bool) (hs : f.isSpecial bits = false) :
    FloatLiteral.unsigned? negative (f.magnitude bits) =
      some (.finite negative (f.amount bits)) := by
  cases hz : f.isZero bits with
  | true =>
    have hmagnitude : f.magnitude bits = '0' :: 'x' :: "0p+0".toList := by
      unfold magnitude
      rw [if_neg (Bool.not_eq_true _ ▸ hs), if_pos hz]
      rfl
    rw [hmagnitude, FloatLiteral.unsigned?, number?_zero, Option.map_some, amount_of_isZero hz]
  | false =>
    rw [magnitude_of_finite hs hz, FloatLiteral.unsigned?, h.number?_finite hz, Option.map_some]

/-- What a pattern means but for its sign. -/
theorem Roomy.unsigned?_magnitude (h : f.Roomy) (bits : Nat) :
    FloatLiteral.unsigned? (f.isNegative bits) (f.magnitude bits) = some (f.meaning bits) := by
  unfold meaning
  cases hs : f.isSpecial bits with
  | true => rw [unsigned?_of_special _ hs, if_pos rfl]
  | false => rw [h.unsigned?_of_finite _ hs, if_neg Bool.false_ne_true]

theorem read?_of_unsigned {cs : List Char} {m : FloatMeaning}
    (h : FloatLiteral.unsigned? false cs = some m) : FloatLiteral.read? cs = some m := by
  unfold FloatLiteral.read?
  split
  · simp [FloatLiteral.unsigned?] at h
  · exact h

/-- The literal of a pattern says what the pattern means. -/
theorem Roomy.read?_literal (h : f.Roomy) (bits : Nat) :
    FloatLiteral.read? (f.literal bits) = some (f.meaning bits) := by
  have hread := h.unsigned?_magnitude bits
  unfold literal
  cases hsign : f.isNegative bits with
  | true =>
    rw [hsign] at hread
    exact hread
  | false =>
    rw [hsign] at hread
    exact read?_of_unsigned hread

/-! ### Patterns that mean the same -/

/-- A finite amount in units of the least one. -/
def units (fractionBits exponent fraction : Nat) : Nat :=
  if exponent = 0 then fraction else (2 ^ fractionBits + fraction) * 2 ^ (exponent - 1)

section

variable {k e e' x y : Nat}

theorem units_lt (hx : x < 2 ^ k) : units k e x < 2 ^ (k + e) := by
  unfold units
  split
  next he => simpa [he] using hx
  next he =>
    have hexp : k + e = (k + 1) + (e - 1) := by omega
    rw [hexp, Nat.pow_add _ (k + 1)]
    exact Nat.mul_lt_mul_of_pos_right (by rw [Nat.pow_succ]; omega) (Nat.two_pow_pos _)

theorem le_units (he : e ≠ 0) : 2 ^ (k + (e - 1)) ≤ units k e x := by
  rw [units, if_neg he, Nat.pow_add]
  exact Nat.mul_le_mul_right _ (Nat.le_add_right ..)

theorem units_lt_units (hx : x < 2 ^ k) (h : e < e') : units k e x < units k e' y :=
  calc units k e x < 2 ^ (k + e) := units_lt hx
    _ ≤ 2 ^ (k + (e' - 1)) := Nat.pow_le_pow_right (by decide) (by omega)
    _ ≤ units k e' y := le_units (by omega)

/-- The exponents of amounts do not overlap. -/
theorem eq_of_units_eq (hx : x < 2 ^ k) (hy : y < 2 ^ k) (h : units k e x = units k e' y) :
    e = e' ∧ x = y := by
  have he : e = e' := by
    rcases Nat.lt_trichotomy e e' with hlt | heq | hgt
    · exact absurd h (Nat.ne_of_lt (units_lt_units hx hlt))
    · exact heq
    · exact absurd h.symm (Nat.ne_of_lt (units_lt_units hy hgt))
  subst he
  refine ⟨rfl, ?_⟩
  unfold units at h
  split at h
  · exact h
  · exact Nat.add_left_cancel (Nat.eq_of_mul_eq_mul_right (Nat.two_pow_pos _) h)

end

theorem amount_eq_units (f : FloatFormat) (bits : Nat) :
    f.amount bits = units f.fractionBits (f.exponentField bits) (f.fraction bits) *
      2 ^ (1 - (f.bias : ℤ) - f.fractionBits) := by
  unfold FloatFormat.amount units
  by_cases he : f.exponentField bits = 0
  · rw [if_pos he, if_pos he]
  · have hexp : (f.exponentField bits : ℤ) - f.bias - f.fractionBits =
        (f.exponentField bits - 1 : ℕ) + (1 - (f.bias : ℤ) - f.fractionBits) := by omega
    rw [if_neg he, if_neg he, hexp, zpow_add₀ (by norm_num), zpow_natCast]
    push_cast
    ring

theorem fields_of_amount {a b : Nat} (h : f.amount a = f.amount b) :
    f.exponentField a = f.exponentField b ∧ f.fraction a = f.fraction b := by
  have hpos : (2 : ℚ) ^ (1 - (f.bias : ℤ) - f.fractionBits) ≠ 0 := by positivity
  rw [amount_eq_units, amount_eq_units] at h
  have hunits := Nat.cast_injective (mul_right_cancel₀ hpos h)
  exact eq_of_units_eq (f.fraction_lt a) (f.fraction_lt b) hunits

theorem fields_split (f : FloatFormat) (bits : Nat) :
    bits = f.fraction bits + 2 ^ f.fractionBits * (f.exponentField bits +
      2 ^ f.exponentBits * (bits >>> (f.exponentBits + f.fractionBits))) := by
  rw [exponentField, Nat.add_comm f.exponentBits, Nat.shiftRight_add,
    Nat.shiftRight_eq_div_pow (bits >>> _), Nat.one_shiftLeft, Nat.mod_add_div, fraction,
    Nat.one_shiftLeft, Nat.shiftRight_eq_div_pow, Nat.mod_add_div]

theorem sign_lt {bits : Nat} (h : bits < 2 ^ f.width) :
    bits >>> (f.exponentBits + f.fractionBits) < 2 := by
  rw [Nat.shiftRight_eq_div_pow, Nat.div_lt_iff_lt_mul (Nat.two_pow_pos _), ← Nat.pow_succ']
  rwa [width, Nat.add_assoc, Nat.add_comm] at h

/-- A pattern is made of its sign, its exponent and its fraction. -/
theorem eq_of_fields {a b : Nat} (ha : a < 2 ^ f.width) (hb : b < 2 ^ f.width)
    (hsign : f.isNegative a = f.isNegative b) (hexp : f.exponentField a = f.exponentField b)
    (hfrac : f.fraction a = f.fraction b) : a = b := by
  have hla := sign_lt ha
  have hlb := sign_lt hb
  have htop : a >>> (f.exponentBits + f.fractionBits) = b >>> (f.exponentBits + f.fractionBits) := by
    rw [isNegative, isNegative, Nat.mod_eq_of_lt hla, Nat.mod_eq_of_lt hlb, Bool.eq_iff_iff,
      beq_iff_eq, beq_iff_eq] at hsign
    by_cases hone : a >>> (f.exponentBits + f.fractionBits) = 1
    · rw [hone, hsign.mp hone]
    · have hother := mt hsign.mpr hone
      rw [Nat.lt_one_iff.mp (Nat.lt_of_le_of_ne (Nat.le_of_lt_succ hla) hone),
        Nat.lt_one_iff.mp (Nat.lt_of_le_of_ne (Nat.le_of_lt_succ hlb) hother)]
  rw [f.fields_split a, f.fields_split b, hfrac, hexp, htop]

theorem exponentField_of_isSpecial {a b : Nat} (ha : f.isSpecial a = true)
    (hb : f.isSpecial b = true) : f.exponentField a = f.exponentField b := by
  rw [isSpecial, beq_iff_eq] at ha hb
  rw [ha, hb]

theorem fraction_of_payload? {a b : Nat} (h : f.payload? a = f.payload? b) :
    f.fraction a = f.fraction b := by
  unfold payload? at h
  by_cases hqa : f.fraction a = 1 <<< (f.fractionBits - 1) <;>
    by_cases hqb : f.fraction b = 1 <<< (f.fractionBits - 1)
  · rw [hqa, hqb]
  · rw [if_pos hqa, if_neg hqb] at h
    cases h
  · rw [if_neg hqa, if_pos hqb] at h
    cases h
  · rw [if_neg hqa, if_neg hqb] at h
    exact Option.some.inj h

/-- Patterns that mean the same are both special or both finite. -/
theorem fields_of_meaning {a b : Nat} (h : f.meaning a = f.meaning b) :
    f.isNegative a = f.isNegative b ∧ f.exponentField a = f.exponentField b ∧
      f.fraction a = f.fraction b := by
  unfold meaning at h
  by_cases hsa : f.isSpecial a = true <;> by_cases hsb : f.isSpecial b = true
  · have hexp := exponentField_of_isSpecial hsa hsb
    rw [if_pos hsa, if_pos hsb] at h
    by_cases hfa : f.fraction a = 0 <;> by_cases hfb : f.fraction b = 0
    · rw [if_pos hfa, if_pos hfb] at h
      exact ⟨FloatMeaning.infinite.inj h, hexp, hfa.trans hfb.symm⟩
    · rw [if_pos hfa, if_neg hfb] at h
      cases h
    · rw [if_neg hfa, if_pos hfb] at h
      cases h
    · rw [if_neg hfa, if_neg hfb] at h
      obtain ⟨hsign, hpayload⟩ := FloatMeaning.nan.inj h
      exact ⟨hsign, hexp, fraction_of_payload? hpayload⟩
  · rw [if_pos hsa, if_neg hsb] at h
    split at h <;> cases h
  · rw [if_neg hsa, if_pos hsb] at h
    split at h <;> cases h
  · rw [if_neg hsa, if_neg hsb] at h
    obtain ⟨hsign, hamount⟩ := FloatMeaning.finite.inj h
    exact ⟨hsign, fields_of_amount hamount⟩

/-- What a pattern means tells the pattern. -/
theorem meaning_injective {a b : Nat} (ha : a < 2 ^ f.width) (hb : b < 2 ^ f.width)
    (h : f.meaning a = f.meaning b) : a = b := by
  obtain ⟨hsign, hexp, hfrac⟩ := fields_of_meaning h
  exact eq_of_fields ha hb hsign hexp hfrac

theorem Roomy.literal_injective (h : f.Roomy) {a b : Nat} (ha : a < 2 ^ f.width)
    (hb : b < 2 ^ f.width) (he : f.literal a = f.literal b) : a = b := by
  have hread := h.read?_literal a
  rw [he, h.read?_literal b] at hread
  exact (meaning_injective hb ha (Option.some.inj hread)).symm

end FloatFormat

end GuestGate
