/-!
# Chains of checks

When a computation made of checks succeeds, and what it fails with.
-/

namespace GuestGate

variable {ε α β : Type}

/-- A chain of checks succeeds if each check does. -/
theorem bind_eq_ok_iff {e : Except ε α} {k : α → Except ε β} {b : β} :
    (e >>= k) = .ok b ↔ ∃ a, e = .ok a ∧ k a = .ok b := by
  cases e <;> simp [bind, Except.bind]

/-- A chain of checks fails with the first check that fails. -/
theorem bind_eq_error_iff {e : Except ε α} {k : α → Except ε β} {f : ε} :
    (e >>= k) = .error f ↔ e = .error f ∨ ∃ a, e = .ok a ∧ k a = .error f := by
  cases e <;> simp [bind, Except.bind]

theorem map_eq_ok_iff {e : Except ε α} {g : α → β} {b : β} :
    e.map g = .ok b ↔ ∃ a, e = .ok a ∧ g a = b := by
  cases e <;> simp [Except.map]

theorem map_eq_error_iff {e : Except ε α} {g : α → β} {f : ε} :
    e.map g = .error f ↔ e = .error f := by
  cases e <;> simp [Except.map]

theorem pure_eq_ok_iff {a b : α} : (pure a : Except ε α) = .ok b ↔ a = b := by
  simp [pure, Except.pure]

end GuestGate
