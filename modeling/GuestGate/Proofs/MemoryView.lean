import GuestGate.Memory
import GuestGate.SocketAddress

/-!
# Memories by offset

A memory as a function from offsets to bytes. Writing lays the data over what was there, whatever
else was written there before, and a word is read back from the four bytes it was laid over.
-/

namespace GuestGate

/-- Bytes by offset with others laid over them from a place on. -/
def overlay (start : Nat) (data : List UInt8) (below : Nat → Option UInt8) (i : Nat) :
    Option UInt8 :=
  if start ≤ i ∧ i < start + data.length then data[i - start]? else below i

theorem overlay_add {start : Nat} {data : List UInt8} {below : Nat → Option UInt8} {k : Nat}
    (h : k < data.length) : overlay start data below (start + k) = data[k]? := by
  rw [overlay, if_pos (by omega), Nat.add_sub_cancel_left]

namespace Memory

/-- The bytes of a memory by offset, and nothing past its end. -/
def view (m : Memory) (i : Nat) : Option UInt8 := m.bytes[i]?

variable {m : Memory}

theorem view_of_lt {i : Nat} (h : i < m.size) : m.view i = some (m.byte i h) := by
  rw [view, getElem?_bytes, byte?, dif_pos h]

theorem view_eq_some_iff {i : Nat} {b : UInt8} :
    m.view i = some b ↔ ∃ h : i < m.size, m.byte i h = b := by
  rw [view, getElem?_bytes, byte?]
  split
  next h => simp [h]
  next h => simp [h]

theorem view_put {start : Nat} {data : List UInt8} (h : start + data.length ≤ m.size) :
    (m.put start data).view = overlay start data m.view := by
  funext i
  exact getElem?_put m h i

theorem readWord_of_view {offset : UInt32} {a b c d : UInt8} (ha : m.view offset.toNat = some a)
    (hb : m.view (offset.toNat + 1) = some b) (hc : m.view (offset.toNat + 2) = some c)
    (hd : m.view (offset.toNat + 3) = some d) : m.readWord offset = .ok (Bytes.word a b c d) := by
  obtain ⟨_, rfl⟩ := view_eq_some_iff.mp ha
  obtain ⟨_, rfl⟩ := view_eq_some_iff.mp hb
  obtain ⟨_, rfl⟩ := view_eq_some_iff.mp hc
  obtain ⟨hlt, rfl⟩ := view_eq_some_iff.mp hd
  have hin : m.Contains offset 4 := hlt
  rw [readWord, dif_pos hin]

/-- A slice has the bytes of the memory from its offset on. -/
theorem getElem?_slice {offset : UInt32} {length i : Nat} {bytes : List UInt8}
    (h : m.slice offset length = .ok bytes) (hi : i < length) :
    bytes[i]? = m.view (offset.toNat + i) := by
  obtain ⟨hc, rfl⟩ := slice_eq_ok_iff.mp h
  rw [Contains, ← size_bytes] at hc
  rw [Array.getElem?_toList, Array.getElem?_extract, if_pos (by omega), view]

/-- A word is read back from where it was written. -/
theorem readWord_put {offset : UInt32} (h : m.Contains offset 4) (n : UInt32) :
    (m.put offset.toNat (Bytes.ofWord n)).readWord offset = .ok n := by
  have hv : (m.put offset.toNat (Bytes.ofWord n)).view =
      overlay offset.toNat (Bytes.ofWord n) m.view := view_put h
  have hk (k : Nat) (hlt : k < 4) :
      (m.put offset.toNat (Bytes.ofWord n)).view (offset.toNat + k) = (Bytes.ofWord n)[k]? := by
    rw [hv, overlay_add hlt]
  rw [readWord_of_view (hk 0 (by omega)) (hk 1 (by omega)) (hk 2 (by omega)) (hk 3 (by omega)),
    Bytes.word_ofWord]

end Memory

/-- What would lie past the end is dropped. -/
theorem Bytes.overwrite_take (bytes : Array UInt8) (start : Nat) (data : List UInt8) :
    overwrite bytes start (data.take (bytes.size - start)) = overwrite bytes start data := by
  induction data generalizing bytes start with
  | nil => simp
  | cons b rest ih =>
    have hrest := ih (bytes.setIfInBounds start b) (start + 1)
    rw [Array.size_setIfInBounds] at hrest
    by_cases h : start < bytes.size
    · rw [show bytes.size - start = (bytes.size - (start + 1)) + 1 by omega, List.take_succ_cons,
        overwrite, overwrite, hrest]
    · have hb : bytes.setIfInBounds start b = bytes := Array.setIfInBounds_eq_of_size_le (by omega)
      rw [hb, show bytes.size - (start + 1) = 0 by omega] at hrest
      rw [show bytes.size - start = 0 by omega, overwrite.eq_2, hb, ← hrest]
      rfl

namespace SocketAddress

/-- The bytes of a buffer after some were stored from its start on, as far as there is room. -/
theorem toList_fill (a : SocketAddress) (bytes : List UInt8) :
    (a.fill bytes).storage.toList = (bytes ++ a.storage.toList.drop bytes.length).take capacity := by
  have hs := a.size_storage
  have hl : 0 + (bytes.take capacity).length ≤ a.storage.size := by
    rw [hs, Nat.zero_add]
    exact List.length_take_le _ _
  have hfill : (a.fill bytes).storage = Bytes.overwrite a.storage 0 (bytes.take capacity) := by
    have ht := Bytes.overwrite_take a.storage 0 bytes
    rw [hs, Nat.sub_zero] at ht
    exact ht.symm
  apply List.ext_getElem?
  intro i
  rw [hfill, Array.getElem?_toList, Bytes.getElem?_overwrite _ _ _ _ hl]
  by_cases hi : i < capacity
  · rw [List.getElem?_take_of_lt hi]
    by_cases hb : i < bytes.length
    · rw [if_pos (by rw [List.length_take]; omega), Nat.sub_zero, List.getElem?_take_of_lt hi,
        List.getElem?_append_left hb]
    · rw [if_neg (by rw [List.length_take]; omega), List.getElem?_append_right (by omega),
        List.getElem?_drop, Array.getElem?_toList]
      congr 1
      omega
  · rw [if_neg (by rw [List.length_take]; omega), Array.getElem?_eq_none (by omega),
      List.getElem?_eq_none (by rw [List.length_take]; omega)]

/-- What a buffer of zeros holds after some bytes were stored from its start on. -/
theorem toList_fill_zeros (length : UInt32) (bytes : List UInt8) :
    ((zeros length).fill bytes).storage.toList =
      (bytes ++ List.replicate capacity 0).take capacity := by
  have hz : (zeros length).storage.toList = List.replicate capacity 0 := by simp [zeros]
  rw [toList_fill, hz]
  simp [List.take_append, List.take_replicate]

end SocketAddress

end GuestGate
