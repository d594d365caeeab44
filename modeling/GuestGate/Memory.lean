import GuestGate.Bytes
import GuestGate.Fault
import GuestGate.Memory.Page

/-!
# Linear memory

A guest's memory is a row of pages of bytes that can grow up to a maximum. Every access names a
32-bit offset and a length and succeeds exactly when the range lies inside the memory, as a
statement about unbounded numbers; nothing is clamped or wrapped.
-/

namespace GuestGate

structure Memory where
  pages : Nat
  /-- In pages; without one the address space is the limit. -/
  maximum : Option Nat
  contents : Vector Page pages
  pages_le : pages ≤ maximum.getD maxPages
  maximum_le : maximum.getD maxPages ≤ maxPages
deriving DecidableEq, Repr

namespace Memory

-- In this order a product with an unknown number of pages is stuck for the kernel at once.
def size (m : Memory) : Nat := pageSize * m.pages

theorem size_eq_mul (m : Memory) : m.size = m.pages * pageSize := Nat.mul_comm ..

/-- All bytes in one array, page after page. -/
def bytes (m : Memory) : Array UInt8 := Page.row m.contents

theorem size_bytes (m : Memory) : m.bytes.size = m.size := Page.size_row m.contents

/-- Pages of zeros. -/
def zeros (pages : Nat) (maximum : Option Nat) (hp : pages ≤ maximum.getD maxPages)
    (hm : maximum.getD maxPages ≤ maxPages) : Memory :=
  ⟨pages, maximum, .replicate pages .zeros, hp, hm⟩

/-- A memory of zeros. -/
def create (pages : Nat) (maximum : Option Nat) : Except Fault Memory :=
  if hp : maxPages < pages then .error (.memory (.initialTooLarge pages))
  else
    match maximum with
    | none =>
      .ok (zeros pages none (by simpa using hp) (by simp))
    | some limit =>
      if hl : limit < pages then .error (.memory (.initialAboveMaximum pages limit))
      else if hm : maxPages < limit then .error (.memory (.maximumTooLarge limit))
      else
        .ok (zeros pages (some limit) (by simpa using hl) (by simpa using hm))

/-- The memory with pages of zeros after its own. -/
def extended (m : Memory) (delta : Nat) (h : m.pages + delta ≤ m.maximum.getD maxPages) : Memory :=
  ⟨m.pages + delta, m.maximum, m.contents ++ Vector.replicate delta Page.zeros, h, m.maximum_le⟩

/-- Adds pages of zeros, unless the maximum is in the way. -/
def grow? (m : Memory) (delta : Nat) : Option Memory :=
  if h : m.pages + delta ≤ m.maximum.getD maxPages then some (m.extended delta h) else none

def Contains (m : Memory) (offset : UInt32) (length : Nat) : Prop :=
  offset.toNat + length ≤ m.size

/-- Where a range ends, unless the sum is too large for the 64-bit numbers of the host. -/
def rangeEnd? (offset : UInt32) (length : Nat) : Option Nat :=
  if offset.toNat + length < UInt64.size then some (offset.toNat + length) else none

theorem size_le (m : Memory) : m.size ≤ UInt32.size := by
  have hp := Nat.le_trans m.pages_le m.maximum_le
  simp only [maxPages] at hp
  simp only [size, pageSize, UInt32.size]
  omega

/-- A sum that the host cannot hold is past the end of every memory. -/
theorem rangeEnd_le_iff {m : Memory} {offset : UInt32} {length : Nat} :
    (rangeEnd? offset length).any (· ≤ m.size) = true ↔ m.Contains offset length := by
  have hm := m.size_le
  simp only [UInt32.size] at hm
  simp only [rangeEnd?, Contains, UInt64.size]
  split
  · simp
  · simp only [Option.any_none, Bool.false_eq_true, false_iff]
    omega

instance (m : Memory) (offset : UInt32) (length : Nat) : Decidable (m.Contains offset length) :=
  decidable_of_iff _ rangeEnd_le_iff

def outOfBounds (m : Memory) (offset : UInt32) (length : Nat) : Fault :=
  .outOfBounds offset length m.size

def check (m : Memory) (offset : UInt32) (length : Nat) : Except Fault Unit :=
  if m.Contains offset length then .ok () else .error (m.outOfBounds offset length)

/-- The byte at a place. -/
def byte (m : Memory) (i : Nat) (h : i < m.size) : UInt8 := Page.byte m.contents i h

def byte? (m : Memory) (i : Nat) : Option UInt8 :=
  if h : i < m.size then some (m.byte i h) else none

/-- The bytes from one place up to another, as far as there are any. -/
def extract (m : Memory) (start stop : Nat) : List UInt8 :=
  (List.range' start (stop - start)).filterMap m.byte?

def slice (m : Memory) (offset : UInt32) (length : Nat) : Except Fault (List UInt8) :=
  if m.Contains offset length then .ok (m.extract offset.toNat (offset.toNat + length))
  else .error (m.outOfBounds offset length)

def readByte (m : Memory) (offset : UInt32) : Except Fault UInt8 :=
  if h : m.Contains offset 1 then .ok (m.byte offset.toNat h)
  else .error (m.outOfBounds offset 1)

/-- Four bytes, least significant first. -/
def readWord (m : Memory) (offset : UInt32) : Except Fault UInt32 :=
  if h : m.Contains offset 4 then
    have hc : offset.toNat + 4 ≤ m.size := h
    .ok (Bytes.word (m.byte offset.toNat (by omega)) (m.byte (offset.toNat + 1) (by omega))
      (m.byte (offset.toNat + 2) (by omega)) (m.byte (offset.toNat + 3) (by omega)))
  else .error (m.outOfBounds offset 4)

/-- The memory with another byte at a place; past its end nothing is written. -/
def set (m : Memory) (i : Nat) (b : UInt8) : Memory :=
  { m with contents := Page.setByte m.contents i b }

/-- The memory with `data` over the bytes from `start` on. -/
-- Used through its lemmas only: unfolded on closed arguments it would compute whole pages.
@[irreducible]
def put (m : Memory) (start : Nat) : List UInt8 → Memory
  | [] => m
  | b :: rest => (m.set start b).put (start + 1) rest

def write (m : Memory) (offset : UInt32) (data : List UInt8) : Except Fault Memory :=
  if m.Contains offset data.length then .ok (m.put offset.toNat data)
  else .error (m.outOfBounds offset data.length)

def writeByte (m : Memory) (offset : UInt32) (b : UInt8) : Except Fault Memory :=
  m.write offset [b]

def writeWord (m : Memory) (offset : UInt32) (n : UInt32) : Except Fault Memory :=
  m.write offset (Bytes.ofWord n)

/-- Writes one byte over a whole range. -/
def fill (m : Memory) (offset : UInt32) (length : Nat) (b : UInt8) : Except Fault Memory :=
  if m.Contains offset length then .ok (m.put offset.toNat (List.replicate length b))
  else .error (m.outOfBounds offset length)

/-- Stores bytes at a place within a range that is checked as a whole. -/
def store (m : Memory) (offset : UInt32) (length place : Nat) (data : List UInt8) :
    Except Fault Memory :=
  if m.Contains offset length then .ok (m.put (offset.toNat + place) data)
  else .error (m.outOfBounds offset length)

theorem getElem?_bytes (m : Memory) (i : Nat) : m.bytes[i]? = m.byte? i := by
  by_cases h : i < m.size
  · rw [byte?, dif_pos h]
    exact Page.getElem?_row m.contents h
  · rw [byte?, dif_neg h, Array.getElem?_eq_none (m.size_bytes ▸ Nat.le_of_not_lt h)]

/-- Looking up place after place is taking what is there. -/
theorem filterMap_getElem? (l : List UInt8) (start length : Nat) :
    (List.range' start length).filterMap (fun i => l[i]?) = (l.drop start).take length := by
  induction length generalizing start with
  | zero => rfl
  | succ length ih =>
    rw [List.range'_succ, List.filterMap_cons, ih]
    by_cases h : start < l.length
    · rw [List.getElem?_eq_getElem h, List.drop_eq_getElem_cons h, List.take_succ_cons]
    · rw [List.getElem?_eq_none (Nat.le_of_not_lt h), List.drop_eq_nil_of_le (by omega),
        List.drop_eq_nil_of_le (by omega), List.take_nil, List.take_nil]

theorem extract_eq (m : Memory) (start stop : Nat) :
    m.extract start stop = (m.bytes.extract start stop).toList := by
  have hbyte : m.byte? = fun i => m.bytes.toList[i]? := by
    funext i
    rw [Array.getElem?_toList, getElem?_bytes]
  rw [extract, hbyte, filterMap_getElem?, Array.toList_extract, List.extract_eq_take_drop]

theorem bytes_zeros {pages : Nat} {maximum : Option Nat} (hp : pages ≤ maximum.getD maxPages)
    (hm : maximum.getD maxPages ≤ maxPages) :
    (zeros pages maximum hp hm).bytes = .replicate (pageSize * pages) 0 := Page.row_zeros

theorem bytes_extended {m : Memory} {delta : Nat}
    (h : m.pages + delta ≤ m.maximum.getD maxPages) :
    (m.extended delta h).bytes = m.bytes ++ Array.replicate (pageSize * delta) 0 := by
  rw [bytes, extended, Page.row_append, Page.row_zeros, bytes]

theorem bytes_set (m : Memory) (i : Nat) (b : UInt8) :
    (m.set i b).bytes = m.bytes.setIfInBounds i b := Page.row_setByte m.contents i b

theorem pages_put (m : Memory) (start : Nat) (data : List UInt8) :
    (m.put start data).pages = m.pages := by
  induction data generalizing m start with
  | nil => rw [put]
  | cons b rest ih => rw [put, ih, set]

theorem maximum_put (m : Memory) (start : Nat) (data : List UInt8) :
    (m.put start data).maximum = m.maximum := by
  induction data generalizing m start with
  | nil => rw [put]
  | cons b rest ih => rw [put, ih, set]

theorem bytes_put (m : Memory) (start : Nat) (data : List UInt8) :
    (m.put start data).bytes = Bytes.overwrite m.bytes start data := by
  induction data generalizing m start with
  | nil => rw [put, Bytes.overwrite]
  | cons b rest ih => rw [put, ih, bytes_set, Bytes.overwrite]

theorem size_put (m : Memory) (start : Nat) (data : List UInt8) :
    (m.put start data).size = m.size := by rw [size, pages_put, size]

/-- The bytes are all there is to tell the pages of two memories apart. -/
theorem pages_eq_of_bytes {m n : Memory} (h : m.bytes = n.bytes) : m.pages = n.pages := by
  have hs : m.size = n.size := by rw [← size_bytes, h, size_bytes]
  exact Nat.eq_of_mul_eq_mul_left Page.pageSize_pos hs

theorem check_eq_ok_iff {m : Memory} {offset : UInt32} {length : Nat} :
    m.check offset length = .ok () ↔ m.Contains offset length := by
  unfold check
  split <;> simp_all

theorem slice_eq_ok_iff {m : Memory} {offset : UInt32} {length : Nat} {bs : List UInt8} :
    m.slice offset length = .ok bs ↔ m.Contains offset length ∧
      (m.bytes.extract offset.toNat (offset.toNat + length)).toList = bs := by
  unfold slice
  rw [extract_eq]
  split <;> simp_all

theorem length_slice {m : Memory} {offset : UInt32} {length : Nat} {bs : List UInt8}
    (h : m.slice offset length = .ok bs) : bs.length = length := by
  obtain ⟨hc, rfl⟩ := slice_eq_ok_iff.mp h
  rw [Contains, ← size_bytes] at hc
  simp
  omega

theorem write_eq_ok_iff {m m' : Memory} {offset : UInt32} {data : List UInt8} :
    m.write offset data = .ok m' ↔
      m.Contains offset data.length ∧ m.put offset.toNat data = m' := by
  unfold write
  split <;> simp_all

/-- Reading a byte after a write gives the byte written there, or the byte from before. -/
theorem getElem?_put (m : Memory) {start : Nat} {data : List UInt8}
    (h : start + data.length ≤ m.size) (i : Nat) :
    (m.put start data).bytes[i]? =
      if start ≤ i ∧ i < start + data.length then data[i - start]? else m.bytes[i]? := by
  rw [bytes_put]
  exact Bytes.getElem?_overwrite m.bytes start data i (m.size_bytes ▸ h)

end Memory

end GuestGate
