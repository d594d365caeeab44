import GuestGate.Proofs.Layout

/-!
# The loop that reads a vector

Reading a vector goes from entry to entry. Every turn that goes on takes an entry that is not empty,
with its NUL, so the cursor moves by two bytes or more and stays inside the memory or right behind
it; it is the sum of what was read, as an unbounded number. Only where an entry ends with the last
byte of the whole address space is there no cursor for what would come next.
-/

namespace GuestGate.Memory

/-- The loop that reads a vector from an offset comes to a cursor with some entries read. -/
inductive Reaches (m : Memory) (offset : UInt32) : List (List UInt8) → UInt32 → Prop where
  | start : m.Reaches offset [] offset
  | next {entries : List (List UInt8)} {cursor next : UInt32} {s : List UInt8} :
    m.Reaches offset entries cursor → m.entry cursor = .ok (some (s, next)) →
    m.Reaches offset (entries ++ [s]) next

/-- There is an entry at a cursor and no cursor after it: its length with the NUL is not a 32-bit
number, or the sum of the cursor and that length is not. -/
inductive NoCursorAfter (m : Memory) (cursor : UInt32) (s : List UInt8) : Prop where
  | length : m.string cursor = .ok s → s ≠ [] → word? (s.length + 1) = none →
    m.NoCursorAfter cursor s
  | sum {advance : UInt32} : m.string cursor = .ok s → s ≠ [] →
    word? (s.length + 1) = some advance → sum? cursor advance = none → m.NoCursorAfter cursor s

/-- The loop stops at a cursor, with its result. -/
inductive Stops (m : Memory) (entries : List (List UInt8)) (cursor : UInt32) :
    Except Fault (List (List UInt8)) → Prop where
  | terminator : m.string cursor = .ok [] → m.Stops entries cursor (.ok entries)
  | unreadable {f : Fault} : m.string cursor = .error f → m.Stops entries cursor (.error f)
  | noCursor {s : List UInt8} : m.NoCursorAfter cursor s →
    m.Stops entries cursor (.error (m.outOfBounds cursor (s.length + 1)))

/-- An entry whose NUL is the last byte of a memory that fills the address space. -/
structure LastEntry (m : Memory) (cursor : UInt32) (s : List UInt8) : Prop where
  pages_eq : m.pages = 65536
  holds : m.HoldsString cursor.toNat s
  ne_nil : s ≠ []
  end_eq : cursor.toNat + s.length + 1 = m.size

/-- What the loop keeps to at a cursor it has come to. -/
structure Paced (m : Memory) (offset : UInt32) (entries : List (List UInt8)) (cursor : UInt32) :
    Prop where
  turns : entries.length + 1 ≤ m.size / 2 + 1
  unwrapped : cursor.toNat = offset.toNat + (entries.flatMap terminated).length
  advance : ∀ s next, m.entry cursor = .ok (some (s, next)) →
    cursor.toNat + 2 ≤ next.toNat ∧ next.toNat ≤ m.size
  ends : ∃ rest last, m.Reaches cursor rest last ∧ m.Stops (entries ++ rest) last (m.strings offset)
  noCursor : ∀ s, m.NoCursorAfter cursor s ↔ m.LastEntry cursor s
  unterminated : ∀ s, m.NoCursorAfter cursor s → ∀ ss, ¬m.HoldsStrings offset.toNat ss
  smaller : m.pages < 65536 → ∀ s, ¬m.NoCursorAfter cursor s

variable {m : Memory} {offset cursor next : UInt32} {s : List UInt8} {f : Fault}
  {entries : List (List UInt8)}

theorem NoCursorAfter.string (h : m.NoCursorAfter cursor s) : m.string cursor = .ok s := by
  cases h with
  | length hs => exact hs
  | sum hs => exact hs

theorem NoCursorAfter.ne_nil (h : m.NoCursorAfter cursor s) : s ≠ [] := by
  cases h with
  | length _ hne => exact hne
  | sum _ hne => exact hne

/-- An entry has no cursor after it if the place after its NUL is not a 32-bit number. -/
theorem noCursorAfter_iff_advance :
    m.NoCursorAfter cursor s ↔
      m.string cursor = .ok s ∧ s ≠ [] ∧ advance? cursor (s.length + 1) = none := by
  rw [advance?, Option.bind_eq_none_iff]
  constructor
  · intro h
    refine ⟨h.string, h.ne_nil, ?_⟩
    cases h with
    | length _ _ hw =>
      intro advance ha
      rw [hw] at ha
      cases ha
    | sum _ _ hw hsum =>
      intro advance ha
      rw [hw] at ha
      cases ha
      exact hsum
  · rintro ⟨hs, hne, hall⟩
    cases hw : word? (s.length + 1) with
    | none => exact .length hs hne hw
    | some advance => exact .sum hs hne hw (hall advance hw)

theorem entry_eq_error_iff :
    m.entry cursor = .error f ↔ m.string cursor = .error f ∨
      ∃ s, m.NoCursorAfter cursor s ∧ f = m.outOfBounds cursor (s.length + 1) := by
  simp only [noCursorAfter_iff_advance]
  unfold entry
  cases hs : m.string cursor with
  | error g => simp
  | ok read =>
    cases read with
    | nil => simp
    | cons b rest =>
      cases ha : advance? cursor (rest.length + 2) with
      | some next => simp [ha]
      | none =>
        constructor
        · intro h
          simp only [ha, Except.error.injEq] at h
          exact .inr ⟨b :: rest, ⟨rfl, by simp, ha⟩, h.symm⟩
        · rintro (h | ⟨_, ⟨⟨⟩, -, -⟩, rfl⟩)
          · cases h
          · simp only [ha, List.length_cons]

/-- The place after an entry's NUL is inside the memory or right behind it, so only the end of the
address space has no number. -/
theorem noCursorAfter_iff_lastEntry : m.NoCursorAfter cursor s ↔ m.LastEntry cursor s := by
  rw [noCursorAfter_iff_advance, string_eq_ok_iff, Option.eq_none_iff_forall_ne_some]
  have hsize := m.size_le
  constructor
  · rintro ⟨hs, hne, hnone⟩
    have hend := string_end (string_eq_ok_iff.mpr hs)
    -- A place below the size of the address space would be the next cursor.
    have hfull : ¬cursor.toNat + (s.length + 1) < UInt32.size := by
      intro hlt
      exact hnone _ (advance?_eq_some_iff.mpr (UInt32.toNat_ofNat_of_lt' hlt))
    have hpages := m.size_eq_mul
    simp only [UInt32.size] at hsize hfull
    simp only [pageSize] at hpages
    exact ⟨by omega, hs, hne, by omega⟩
  · rintro ⟨hpages, hs, hne, hend⟩
    refine ⟨hs, hne, fun next hnext => ?_⟩
    have hlt : next.toNat < UInt32.size := next.toNat_lt
    have hfull : m.size = UInt32.size := by rw [size, hpages]; rfl
    rw [advance?_eq_some_iff] at hnext
    omega

/-! ## One turn -/

theorem stops_or_goes_on (m : Memory) (entries : List (List UInt8)) (cursor : UInt32) :
    (∃ result, m.Stops entries cursor result) ∨
      ∃ s next, m.entry cursor = .ok (some (s, next)) := by
  cases he : m.entry cursor with
  | error f =>
    rcases entry_eq_error_iff.mp he with hs | ⟨s, hs, -⟩
    · exact .inl ⟨_, .unreadable hs⟩
    · exact .inl ⟨_, .noCursor hs⟩
  | ok read =>
    cases read with
    | none => exact .inl ⟨_, .terminator (entry_eq_none_iff.mp he)⟩
    | some pair => exact .inr ⟨pair.1, pair.2, rfl⟩

/-- A turn that goes on takes an entry and its NUL. -/
theorem entry_advance (h : m.entry cursor = .ok (some (s, next))) :
    cursor.toNat + 2 ≤ next.toNat ∧ next.toNat ≤ m.size := by
  obtain ⟨hnext, hle, hne⟩ := entry_next h
  have hpos := List.length_pos_iff.mpr hne
  exact ⟨by omega, hle⟩

/-! ## All turns -/

theorem Reaches.cons {rest : List (List UInt8)} {last : UInt32}
    (h : m.entry offset = .ok (some (s, next))) (hr : m.Reaches next rest last) :
    m.Reaches offset (s :: rest) last := by
  induction hr with
  | start => exact .next .start h
  | next _ he ih => exact .next ih he

/-- What is read is what was read so far and what is read from the cursor on. -/
theorem Reaches.strings_eq (h : m.Reaches offset entries cursor) :
    m.strings offset = (m.strings cursor).map (entries ++ ·) := by
  induction h with
  | start => cases m.strings offset <;> rfl
  | next _ he ih =>
    rw [ih, strings_of_entry he]
    cases m.strings _ <;> simp [Except.map]

theorem Reaches.result_eq {result : Except Fault (List (List UInt8))}
    (h : m.Reaches offset entries cursor) (hs : m.Stops entries cursor result) :
    m.strings offset = result := by
  rw [h.strings_eq]
  cases hs with
  | terminator he =>
    rw [strings_of_end (entry_eq_none_iff.mpr he)]
    simp [Except.map]
  | unreadable he =>
    rw [strings_of_error (entry_eq_error_iff.mpr (.inl he))]
    rfl
  | noCursor he =>
    rw [strings_of_error (entry_eq_error_iff.mpr (.inr ⟨_, he, rfl⟩))]
    rfl

theorem Reaches.trans {rest : List (List UInt8)} {last : UInt32}
    (h : m.Reaches offset entries cursor) (hr : m.Reaches cursor rest last) :
    m.Reaches offset (entries ++ rest) last := by
  induction hr with
  | start => rwa [List.append_nil]
  | next _ he ih =>
    rw [← List.append_assoc]
    exact .next ih he

/-- The cursor never wraps around. -/
theorem Reaches.cursor_eq (h : m.Reaches offset entries cursor) :
    cursor.toNat = offset.toNat + (entries.flatMap terminated).length := by
  induction h with
  | start => rfl
  | next _ he ih =>
    obtain ⟨hnext, -, -⟩ := entry_next he
    rw [List.flatMap_append, List.length_append, List.flatMap_singleton, length_terminated]
    omega

/-- Every entry read so far took two bytes or more. -/
theorem Reaches.two_mul_length_le (h : m.Reaches offset entries cursor) :
    offset.toNat + 2 * entries.length ≤ cursor.toNat := by
  induction h with
  | start => exact Nat.le_refl _
  | next _ he ih =>
    obtain ⟨hadvance, -⟩ := entry_advance he
    rw [List.length_append, List.length_singleton]
    omega

theorem Reaches.cursor_le (h : m.Reaches offset entries cursor) (hne : entries ≠ []) :
    cursor.toNat ≤ m.size := by
  cases h with
  | start => exact absurd rfl hne
  | next _ he => exact (entry_advance he).2

theorem Reaches.turns_le (h : m.Reaches offset entries cursor) :
    entries.length + 1 ≤ m.size / 2 + 1 := by
  by_cases hne : entries = []
  · rw [hne]
    exact Nat.le_add_left 1 _
  · have htwo := h.two_mul_length_le
    have hle := h.cursor_le hne
    omega

/-- From every cursor the loop goes on to a stop, as what is left of the memory gets smaller. -/
theorem exists_stops (m : Memory) (entries : List (List UInt8)) (cursor : UInt32) :
    ∃ rest last result, m.Reaches cursor rest last ∧ m.Stops (entries ++ rest) last result := by
  rcases m.stops_or_goes_on entries cursor with ⟨result, hs⟩ | ⟨s, next, he⟩
  · exact ⟨[], cursor, result, .start, by rwa [List.append_nil]⟩
  · have hadvance := entry_advance he
    obtain ⟨rest, last, result, hr, hs⟩ := exists_stops m (entries ++ [s]) next
    exact ⟨s :: rest, last, result, .cons he hr, by rwa [List.append_assoc] at hs⟩
termination_by m.size - cursor.toNat

/-- An entry with no cursor after it has no room for the end of a vector behind it. -/
theorem Reaches.not_holdsStrings (h : m.Reaches offset entries cursor)
    (hs : m.NoCursorAfter cursor s) (ss : List (List UInt8)) :
    ¬m.HoldsStrings offset.toNat ss :=
  missing_of_strings_error (h.result_eq (.noCursor hs)) ss

/-- The loop that reads a vector ends, with a turn for every two bytes of the memory and one more at
the most, and its cursor is the place it says at every turn. -/
theorem Reaches.paced (h : m.Reaches offset entries cursor) : m.Paced offset entries cursor where
  turns := h.turns_le
  unwrapped := h.cursor_eq
  advance _ _ := entry_advance
  ends := by
    obtain ⟨rest, last, result, hr, hs⟩ := m.exists_stops entries cursor
    refine ⟨rest, last, hr, ?_⟩
    rwa [(h.trans hr).result_eq hs]
  noCursor _ := noCursorAfter_iff_lastEntry
  unterminated _ := h.not_holdsStrings
  smaller hlt s hs := by
    have hpages := (noCursorAfter_iff_lastEntry.mp hs).pages_eq
    omega

/-- A memory that fills the address space, with two strings and their NULs as its last bytes. -/
def brimming : Memory :=
  (zeros 65536 none (Nat.le_refl maxPages) (Nat.le_refl maxPages)).put 4294967292 [98, 0, 97, 0]

theorem pages_brimming : brimming.pages = 65536 := pages_put ..

theorem size_brimming : brimming.size = 4294967296 := size_put ..

theorem brimming_holds :
    brimming.Holds 4294967292 (terminated [98]) ∧ brimming.Holds 4294967294 (terminated [97]) := by
  have hboth : brimming.Holds 4294967292 (terminated [98] ++ terminated [97]) :=
    holds_put (Nat.le_refl 4294967296)
  exact holds_append.mp hboth

theorem brimming_entry : brimming.entry 4294967292 = .ok (some ([98], 4294967294)) :=
  entry_eq_some_iff.mpr
    ⟨string_eq_ok_iff.mpr ⟨by decide, brimming_holds.1⟩, by decide, by decide⟩

theorem brimming_lastEntry : brimming.LastEntry 4294967294 [97] where
  pages_eq := pages_brimming
  holds := ⟨by decide, brimming_holds.2⟩
  ne_nil := by decide
  end_eq := size_brimming.symm

/-- A read of the two strings takes the first one and has no cursor after the second. -/
theorem brimming_paced :
    brimming.Reaches 4294967292 [[98]] 4294967294 ∧ brimming.NoCursorAfter 4294967294 [97] ∧
      brimming.Paced 4294967292 [[98]] 4294967294 := by
  have hreach : brimming.Reaches 4294967292 [[98]] 4294967294 := .next .start brimming_entry
  exact ⟨hreach, noCursorAfter_iff_lastEntry.mpr brimming_lastEntry, hreach.paced⟩

end GuestGate.Memory
