import GuestGate.Memory

/-!
# Strings in guest memory

A string runs up to a NUL byte. A vector of strings is one string after the other and ends with an
empty one.
-/

namespace GuestGate.Memory

/-- The first NUL byte from place `i` on. -/
def scanNul {n : Nat} (contents : Vector Page n) (i : Nat) : Option Nat :=
  if h : i < pageSize * n then
    if Page.byte contents i h = 0 then some i else scanNul contents (i + 1)
  else none
termination_by pageSize * n - i

theorem scanNul_eq_some {n i e : Nat} {contents : Vector Page n}
    (h : scanNul contents i = some e) : i ≤ e ∧ e < pageSize * n := by
  fun_induction scanNul contents i with
  | case1 i hi _ => cases h; exact ⟨Nat.le_refl _, hi⟩
  | case2 i _ _ ih => obtain ⟨hl, hr⟩ := ih h; exact ⟨by omega, hr⟩
  | case3 => cases h

/-- The string at an offset, without its NUL. One that meets the end of memory first is an access
to the byte past it. -/
def string (m : Memory) (offset : UInt32) : Except Fault (List UInt8) :=
  if m.Contains offset 0 then
    match scanNul m.contents offset.toNat with
    | some e => .ok (m.extract offset.toNat e)
    | none => .error (m.outOfBounds offset (m.size - offset.toNat + 1))
  else .error (m.outOfBounds offset 0)

theorem string_end {m : Memory} {offset : UInt32} {s : List UInt8}
    (h : m.string offset = .ok s) : offset.toNat + s.length + 1 ≤ m.size := by
  unfold string at h
  split at h
  · split at h
    next e he =>
      cases h
      obtain ⟨hl, hr⟩ := scanNul_eq_some he
      have hsize : e < m.bytes.size := m.size_bytes ▸ hr
      rw [extract_eq, ← size_bytes]
      simp
      omega
    · cases h
  · cases h

/-- A length as a 32-bit number, if it is one. -/
def word? (n : Nat) : Option UInt32 :=
  if n < UInt32.size then some (UInt32.ofNat n) else none

/-- The sum of two 32-bit numbers, if it is one. -/
def sum? (a b : UInt32) : Option UInt32 :=
  if a.toNat + b.toNat < UInt32.size then some (a + b) else none

/-- `offset + length` as an offset, for which the length has to be a 32-bit number too. -/
def advance? (offset : UInt32) (length : Nat) : Option UInt32 :=
  (word? length).bind (sum? offset)

theorem word?_eq_some_iff {n : Nat} {w : UInt32} : word? n = some w ↔ w.toNat = n := by
  unfold word?
  split
  next h => simp [← UInt32.toNat_inj, Nat.mod_eq_of_lt h, eq_comm]
  next h =>
    have hlt : w.toNat < UInt32.size := w.toNat_lt
    simp
    omega

theorem sum?_eq_some_iff {a b c : UInt32} : sum? a b = some c ↔ c.toNat = a.toNat + b.toNat := by
  unfold sum?
  split
  next h => simp [← UInt32.toNat_inj, UInt32.toNat_add, Nat.mod_eq_of_lt h, eq_comm]
  next h =>
    have hlt : c.toNat < UInt32.size := c.toNat_lt
    simp
    omega

theorem advance?_eq_some_iff {offset next : UInt32} {length : Nat} :
    advance? offset length = some next ↔ next.toNat = offset.toNat + length := by
  rw [advance?, Option.bind_eq_some_iff]
  constructor
  · rintro ⟨w, hw, hs⟩
    rw [sum?_eq_some_iff.mp hs, word?_eq_some_iff.mp hw]
  · intro h
    have hlt : next.toNat < UInt32.size := next.toNat_lt
    have hw : (UInt32.ofNat length).toNat = length := UInt32.toNat_ofNat_of_lt' (by omega)
    exact ⟨_, word?_eq_some_iff.mpr hw, sum?_eq_some_iff.mpr (by rw [hw, h])⟩

/-- The entry of a vector at a cursor and the cursor after it, or nothing at the end. An entry that
ends with the last byte of a full address space has no cursor after it. -/
def entry (m : Memory) (cursor : UInt32) : Except Fault (Option (List UInt8 × UInt32)) :=
  match m.string cursor with
  | .error f => .error f
  | .ok [] => .ok none
  | .ok (b :: s) =>
    match advance? cursor (s.length + 2) with
    | some next => .ok (some (b :: s, next))
    | none => .error (m.outOfBounds cursor (s.length + 2))

theorem entry_next {m : Memory} {cursor next : UInt32} {s : List UInt8}
    (h : m.entry cursor = .ok (some (s, next))) :
    next.toNat = cursor.toNat + s.length + 1 ∧ next.toNat ≤ m.size ∧ s ≠ [] := by
  unfold entry at h
  split at h
  · cases h
  · cases h
  next hs =>
    have he := string_end hs
    split at h
    next ha =>
      cases h
      have := advance?_eq_some_iff.mp ha
      simp only [List.length_cons] at he ⊢
      refine ⟨by omega, by omega, by simp⟩
    · cases h

/-- The vector of strings at an offset. -/
def strings (m : Memory) (offset : UInt32) : Except Fault (List (List UInt8)) :=
  match h : m.entry offset with
  | .error f => .error f
  | .ok none => .ok []
  | .ok (some (s, next)) =>
    have := entry_next h
    (strings m next).map (s :: ·)
termination_by m.size - offset.toNat

section

variable {m : Memory} {offset : UInt32}

theorem strings_of_error {f : Fault} (h : m.entry offset = .error f) : m.strings offset = .error f := by
  rw [strings.eq_def]
  split <;> simp_all

theorem strings_of_end (h : m.entry offset = .ok none) : m.strings offset = .ok [] := by
  rw [strings.eq_def]
  split <;> simp_all

theorem strings_of_entry {s : List UInt8} {next : UInt32}
    (h : m.entry offset = .ok (some (s, next))) :
    m.strings offset = (m.strings next).map (s :: ·) := by
  rw [strings.eq_def]
  split <;> simp_all

end

end GuestGate.Memory
