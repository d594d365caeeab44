import GuestGate.Memory.Address

/-!
# Pages

The bytes of a memory lie in pages of one size. A place in the row of all bytes is a place in one of
the pages, and to write there is to write in that page alone.
-/

namespace GuestGate

abbrev Page := Vector UInt8 pageSize

namespace Page

theorem pageSize_pos : 0 < pageSize := by decide

def zeros : Page := .replicate pageSize 0

variable {n : Nat}

/-- The bytes of all pages in a row. -/
def row (pages : Vector Page n) : Array UInt8 := pages.flatten.toArray

/-- The byte at a place of the row. -/
def byte (pages : Vector Page n) (i : Nat) (h : i < pageSize * n) : UInt8 :=
  have hd : i / pageSize < n := Nat.div_lt_of_lt_mul h
  have hm : i % pageSize < pageSize := Nat.mod_lt i pageSize_pos
  pages[i / pageSize][i % pageSize]

/-- Writes the byte at a place of the row; past its end nothing is written. -/
def setByte (pages : Vector Page n) (i : Nat) (b : UInt8) : Vector Page n :=
  ⟨pages.toArray.modify (i / pageSize) fun page => page.setIfInBounds (i % pageSize) b,
    Array.size_modify.trans pages.size_toArray⟩

theorem size_row (pages : Vector Page n) : (row pages).size = pageSize * n :=
  pages.flatten.size_toArray.trans (Nat.mul_comm n pageSize)

theorem getElem_row (pages : Vector Page n) {i : Nat} (h : i < (row pages).size) :
    (row pages)[i] = byte pages i (size_row pages ▸ h) :=
  Vector.getElem_flatten (pages.flatten.size_toArray ▸ h)

theorem getElem?_row (pages : Vector Page n) {i : Nat} (h : i < pageSize * n) :
    (row pages)[i]? = some (byte pages i h) := by
  rw [Array.getElem?_eq_getElem (size_row pages ▸ h), getElem_row]

theorem byte_setByte (pages : Vector Page n) {i j : Nat} (b : UInt8) (h : j < pageSize * n) :
    byte (setByte pages i b) j h = if i = j then b else byte pages j h := by
  simp only [byte, setByte, Vector.getElem_mk, Array.getElem_modify, Vector.getElem_toArray]
  by_cases hd : i / pageSize = j / pageSize
  · simp only [if_pos hd, Vector.getElem_setIfInBounds]
    have hiff : i % pageSize = j % pageSize ↔ i = j := by
      refine ⟨fun hm => ?_, fun he => he ▸ rfl⟩
      rw [← Nat.div_add_mod i pageSize, hd, hm, Nat.div_add_mod]
    simp only [hiff]
  · have hne : i ≠ j := fun he => hd (he ▸ rfl)
    simp only [if_neg hd, if_neg hne]

/-- A write in one page is a write in the row. -/
theorem row_setByte (pages : Vector Page n) (i : Nat) (b : UInt8) :
    row (setByte pages i b) = (row pages).setIfInBounds i b := by
  apply Array.ext
  · rw [Array.size_setIfInBounds, size_row, size_row]
  · intro j hj hset
    have hlt : j < (row pages).size := by rwa [Array.size_setIfInBounds] at hset
    rw [getElem_row, byte_setByte, Array.getElem_setIfInBounds hlt, getElem_row]

theorem row_append {k : Nat} (pages : Vector Page n) (more : Vector Page k) :
    row (pages ++ more) = row pages ++ row more := by
  simp only [row, Vector.flatten_append, Vector.toArray_cast, Vector.toArray_append]

theorem row_zeros : row (.replicate n zeros) = Array.replicate (pageSize * n) 0 := by
  apply Array.ext
  · rw [size_row, Array.size_replicate]
  · intro i hi _
    rw [getElem_row, Array.getElem_replicate]
    simp only [byte, zeros, Vector.getElem_replicate]

theorem eq_of_row_eq {pages others : Vector Page n} (h : row pages = row others) :
    pages = others := Vector.eq_iff_flatten_eq.mpr (Vector.toArray_inj.mp h)

end Page

end GuestGate
