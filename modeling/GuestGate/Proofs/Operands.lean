import GuestGate.Stack

/-!
# Operands

Reading the top of the stack and taking it off. `peekI32` reads integers that were pushed in the
order of the vector it gives, `discard` leaves what lay under them, and neither looks further down.
-/

namespace GuestGate.Stack

/-- A vector of integers as it lies on a stack after it was pushed from its first element on. -/
def pushed {count : Nat} (v : Vector Int32 count) : List Value := (v.toList.map .i32).reverse

theorem length_pushed {count : Nat} (v : Vector Int32 count) : (pushed v).length = count := by
  simp [pushed]

theorem pushed_push {count : Nat} (v : Vector Int32 count) (n : Int32) :
    pushed (v.push n) = .i32 n :: pushed v := by
  simp [pushed, Vector.toList_push]

/-- Reading succeeds on exactly the lists that begin with the integers read, as they were pushed. -/
theorem integers_eq_ok_iff {count : Nat} {l : List Value} {v : Vector Int32 count} :
    integers count l = .ok v ↔ ∃ rest, l = pushed v ++ rest := by
  induction count generalizing l with
  | zero =>
    have he : v = #v[] := Vector.eq_empty
    simp [integers, he, pushed]
  | succ count ih =>
    obtain ⟨w, k, rfl⟩ := @Vector.exists_push _ _ v
    rw [pushed_push]
    cases l with
    | nil => simp [integers]
    | cons first rest =>
      cases first with
      | i32 n =>
        rw [integers]
        constructor
        · intro h
          cases hr : integers count rest with
          | error f => simp [hr, Except.map] at h
          | ok u =>
            simp only [hr, Except.map, Except.ok.injEq] at h
            obtain ⟨rfl, rfl⟩ := Vector.push_eq_push.mp h
            obtain ⟨below, rfl⟩ := ih.mp hr
            exact ⟨below, rfl⟩
        · rintro ⟨below, h⟩
          simp only [List.cons_append, List.cons.injEq, Value.i32.injEq] at h
          obtain ⟨rfl, rfl⟩ := h
          rw [ih.mpr ⟨below, rfl⟩]
          rfl
      | i64 n => simp [integers]
      | f32 bits => simp [integers]
      | f64 bits => simp [integers]

/-- What lies under the operands does not matter, nor do they when there are too few. -/
theorem integers_take (count : Nat) (l : List Value) :
    integers count l = integers count (l.take count) := by
  induction count generalizing l with
  | zero => simp [integers]
  | succ count ih =>
    cases l with
    | nil => rfl
    | cons first rest =>
      rw [List.take_succ_cons]
      cases first with
      | i32 n => simp only [integers]; rw [ih rest]
      | i64 n => rfl
      | f32 bits => rfl
      | f64 bits => rfl

/-- The operands are read exactly if they belong to the current frame and lie on top. -/
theorem peekI32_eq_ok_iff {s : Stack} {count : Nat} {v : Vector Int32 count} :
    s.peekI32 count = .ok v ↔
      count ≤ s.available ∧ ∃ rest, s.operands = pushed v ++ rest := by
  unfold peekI32
  split
  next h => simp; omega
  next h => rw [integers_eq_ok_iff]; simp; omega

theorem peekI32_of_le {s : Stack} {count : Nat} (h : count ≤ s.available) :
    s.peekI32 count = integers count (s.operands.take count) := by
  rw [peekI32, if_neg (by omega), integers_take]

/-- The stack without its top `count` operands, whoever they belong to. -/
def dropped (s : Stack) (count : Nat) : Stack := { s with operands := s.operands.drop count }

theorem discard_of_le {s : Stack} {count : Nat} (h : count ≤ s.available) :
    s.discard count = .ok (s.dropped count) := discard_eq_ok_iff.mpr ⟨h, rfl⟩

theorem operands_dropped {s : Stack} {count : Nat} {v : Vector Int32 count}
    (h : s.peekI32 count = .ok v) : s.operands = pushed v ++ (s.dropped count).operands := by
  obtain ⟨-, rest, hr⟩ := peekI32_eq_ok_iff.mp h
  have hd : (s.dropped count).operands = rest := by
    simp [dropped, hr, List.drop_left' (length_pushed v)]
  rw [hd, hr]

/-- A list refuses to be read because it is too short or has something in it that is no integer. -/
theorem integers_error {count : Nat} {l : List Value} {f : Fault}
    (h : integers count l = .error f) :
    f = .stackUnderflow ∨ ∃ actual, f = .typeMismatch .i32 actual := by
  induction count generalizing l with
  | zero => simp [integers] at h
  | succ count ih =>
    cases l with
    | nil => exact .inl (by simpa [integers, eq_comm] using h)
    | cons first rest =>
      cases first with
      | i32 n =>
        cases hr : integers count rest with
        | error g =>
          simp only [integers, hr, Except.map, Except.error.injEq] at h
          subst h
          exact ih hr
        | ok u => simp [integers, hr, Except.map] at h
      | i64 n => exact .inr ⟨.i64, by simpa [integers, Value.type, eq_comm] using h⟩
      | f32 bits => exact .inr ⟨.f32, by simpa [integers, Value.type, eq_comm] using h⟩
      | f64 bits => exact .inr ⟨.f64, by simpa [integers, Value.type, eq_comm] using h⟩

theorem peekI32_error {s : Stack} {count : Nat} {f : Fault} (h : s.peekI32 count = .error f) :
    f = .stackUnderflow ∨ ∃ actual, f = .typeMismatch .i32 actual := by
  unfold peekI32 at h
  split at h
  · cases h; exact .inl rfl
  · exact integers_error h

end GuestGate.Stack
