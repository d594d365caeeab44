/-!
# Bytes

Writing a run of bytes over an array, and 32-bit words as four bytes, least significant first.
-/

namespace GuestGate.Bytes

/-- Writes `data` over the bytes from `start` on; what lies past the end is dropped. -/
def overwrite (bytes : Array UInt8) (start : Nat) : List UInt8 → Array UInt8
  | [] => bytes
  | b :: rest => overwrite (bytes.setIfInBounds start b) (start + 1) rest

theorem size_overwrite (bytes : Array UInt8) (start : Nat) (data : List UInt8) :
    (overwrite bytes start data).size = bytes.size := by
  induction data generalizing bytes start with
  | nil => rfl
  | cons b rest ih => simp [overwrite, ih]

/-- A byte inside the run is the run's, any other is as before. -/
theorem getElem?_overwrite (bytes : Array UInt8) (start : Nat) (data : List UInt8) (i : Nat)
    (h : start + data.length ≤ bytes.size) :
    (overwrite bytes start data)[i]? =
      if start ≤ i ∧ i < start + data.length then data[i - start]? else bytes[i]? := by
  induction data generalizing bytes start with
  | nil =>
    have : ¬(start ≤ i ∧ i < start) := by omega
    simp [overwrite, this]
  | cons b rest ih =>
    simp only [List.length_cons] at h ⊢
    rw [overwrite, ih _ _ (by rw [Array.size_setIfInBounds]; omega)]
    by_cases hi : i = start
    · subst hi
      rw [if_neg (by omega), if_pos (by omega), Array.getElem?_setIfInBounds_self_of_lt (by omega)]
      simp
    · by_cases hr : start + 1 ≤ i ∧ i < start + 1 + rest.length
      · rw [if_pos hr, if_pos (by omega), show i - start = (i - (start + 1)) + 1 by omega,
          List.getElem?_cons_succ]
      · rw [if_neg hr, if_neg (by omega), Array.getElem?_setIfInBounds_ne (Ne.symm hi)]

/-- The bytes of a word, least significant first. -/
def ofWord (n : UInt32) : List UInt8 :=
  [UInt8.ofNat n.toNat, UInt8.ofNat (n.toNat / 256), UInt8.ofNat (n.toNat / 65536),
    UInt8.ofNat (n.toNat / 16777216)]

def word (a b c d : UInt8) : UInt32 :=
  UInt32.ofNat (a.toNat + 256 * b.toNat + 65536 * c.toNat + 16777216 * d.toNat)

theorem toNat_word (a b c d : UInt8) :
    (word a b c d).toNat = a.toNat + 256 * b.toNat + 65536 * c.toNat + 16777216 * d.toNat := by
  have ha := a.toNat_lt
  have hb := b.toNat_lt
  have hc := c.toNat_lt
  have hd := d.toNat_lt
  rw [word, UInt32.toNat_ofNat']
  exact Nat.mod_eq_of_lt (by omega)

theorem length_ofWord (n : UInt32) : (ofWord n).length = 4 := rfl

theorem word_ofWord (n : UInt32) :
    word (UInt8.ofNat n.toNat) (UInt8.ofNat (n.toNat / 256)) (UInt8.ofNat (n.toNat / 65536))
      (UInt8.ofNat (n.toNat / 16777216)) = n := by
  apply UInt32.toNat_inj.mp
  have := n.toNat_lt
  simp [word]
  omega

theorem ofWord_word (a b c d : UInt8) : ofWord (word a b c d) = [a, b, c, d] := by
  have ha := a.toNat_lt
  have hb := b.toNat_lt
  have hc := c.toNat_lt
  have hd := d.toNat_lt
  simp only [ofWord, List.cons.injEq, and_true]
  refine ⟨?_, ?_, ?_, ?_⟩ <;> apply UInt8.toNat_inj.mp <;> simp [word] <;> omega

end GuestGate.Bytes
