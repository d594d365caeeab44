import GuestGate.Proofs.Crashes

/-!
# Reading operands at once and popping them one by one

A syscall reads its operands in one go and takes them off later, so that a refusal leaves the stack
as it was. Reading them is what popping them one by one would have given, down to the operand that
is refused, and taking them off leaves what the pops would have left. The operations are also
written in place here, with whatever they did to the stack before they failed: they fail before they
touch it.
-/

namespace GuestGate

/-! ### Operations in place -/

/-- Why an operation in place fails: for the fault it found, or because the value that it popped as
an integer turns out to be none. -/
inductive PopFailure where
  | fault (f : Fault)
  | nonI32
deriving DecidableEq, Repr

/-- An operation on a stack in place, where what was done before a failure stays done. -/
abbrev InPlace := ExceptT PopFailure (StateM Stack)

instance : MonadLift (Except Fault) InPlace where
  monadLift
    | .ok a => pure a
    | .error f => throw (.fault f)

namespace InPlace

variable {α : Type}

/-- What an operation comes to on a stack, and the stack it leaves. -/
def on (x : InPlace α) (s : Stack) : Except PopFailure α × Stack := x.run.run s

@[simp]
theorem on_pure (a : α) (s : Stack) : (pure a : InPlace α).on s = (.ok a, s) := rfl

@[simp]
theorem on_throw (e : PopFailure) (s : Stack) : (throw e : InPlace α).on s = (.error e, s) := rfl

@[simp]
theorem on_get (s : Stack) : (get : InPlace Stack).on s = (.ok s, s) := rfl

@[simp]
theorem on_set (s t : Stack) : (set t : InPlace PUnit).on s = (.ok ⟨⟩, t) := rfl

@[simp]
theorem on_map {β : Type} (g : α → β) (x : InPlace α) (s : Stack) :
    (g <$> x).on s = ((x.on s).1.map g, (x.on s).2) := by
  unfold on
  rw [ExceptT.run_map, StateT.run_map]
  obtain ⟨_ | _, _⟩ := x.run.run s <;> rfl

@[simp]
theorem on_lift_ok (a : α) (s : Stack) :
    (liftM (.ok a : Except Fault α) : InPlace α).on s = (.ok a, s) := rfl

@[simp]
theorem on_lift_error (f : Fault) (s : Stack) :
    (liftM (.error f : Except Fault α) : InPlace α).on s = (.error (.fault f), s) := rfl

/-- What comes next works on the stack that has been left, if nothing has failed. -/
theorem on_bind {β : Type} (x : InPlace α) (k : α → InPlace β) (s : Stack) :
    (x >>= k).on s =
      match x.on s with
      | (.ok a, t) => (k a).on t
      | (.error e, t) => (.error e, t) := by
  unfold on
  rw [ExceptT.run_bind, StateT.run_bind]
  obtain ⟨_ | _, _⟩ := x.run.run s <;> rfl

def check (v : Value) (type : ValueType) : Except Fault Unit :=
  if v.type = type then .ok () else .error (.typeMismatch type v.type)

def pop : InPlace Value := do
  let s ← get
  if s.available = 0 then throw (.fault .stackUnderflow)
  else
    match s.operands with
    | [] => throw (.fault .stackUnderflow)
    | v :: rest => do
      set { s with operands := rest }
      return v

def popTyped (type : ValueType) : InPlace Value := do
  let s ← get
  match s.peek with
  | none => throw (.fault .stackUnderflow)
  | some v => do
    check v type
    pop

def popI32 : InPlace Int32 := do
  let v ← popTyped .i32
  match v.asI32? with
  | some n => return n
  | none => throw .nonI32

/-- The operands are checked in the order they would be popped and listed in the order they were
pushed. -/
def peekI32 (count : Nat) : InPlace (List Int32) := do
  let s ← get
  if s.available < count then throw (.fault .stackUnderflow)
  else do
    let top := s.operands.take count
    (top.forM (check · .i32) : Except Fault Unit)
    return top.reverse.filterMap Value.asI32?

def discard (count : Nat) : InPlace Unit := do
  let s ← get
  if s.available < count then throw (.fault .stackUnderflow)
  else set { s with operands := s.operands.drop count }

end InPlace

namespace Stack

variable {s t : Stack} {v : Value} {n : Int32} {rest : List Value} {count : Nat} {f : Fault}

/-- A result and the stack that goes with it, or a fault and the stack as it was. -/
def settled {α : Type} (s : Stack) : Except Fault (α × Stack) → Except PopFailure α × Stack
  | .ok (a, t) => (.ok a, t)
  | .error f => (.error (.fault f), s)

theorem peek_eq_some_iff : s.peek = some v ↔ s.available ≠ 0 ∧ ∃ rest, s.operands = v :: rest := by
  unfold peek
  split
  next h => simp [h]
  next h => simp [h, List.head?_eq_some_iff]

end Stack

namespace InPlace

variable (s : Stack)

theorem pop_on : pop.on s = s.settled s.pop := by
  unfold pop Stack.pop
  by_cases ha : s.available = 0
  · simp [on_bind, ha, Stack.settled]
  · cases ho : s.operands with
    | nil => simp [on_bind, ha, ho, Stack.settled]
    | cons v rest => simp [on_bind, ha, ho, Stack.settled, Except.map]

theorem popTyped_on (type : ValueType) : (popTyped type).on s = s.settled (s.popTyped type) := by
  unfold popTyped Stack.popTyped
  cases hp : s.peek with
  | none => simp [on_bind, hp, Stack.settled]
  | some v =>
    by_cases hv : v.type = type
    · simp [on_bind, hp, hv, check, pop_on]
    · simp [on_bind, hp, hv, check, Stack.settled]

theorem popI32_on : popI32.on s = s.settled s.popI32 := by
  unfold popI32
  rw [on_bind, popTyped_on]
  unfold Stack.popTyped Stack.popI32
  cases hp : s.peek with
  | none => rfl
  | some v =>
    obtain ⟨ha, rest, ho⟩ := Stack.peek_eq_some_iff.mp hp
    cases v <;> simp [Value.type, Stack.pop, ha, ho, Stack.settled, Except.map, Value.asI32?]

/-- Checking the operands and then listing them is reading them one by one. -/
theorem peekI32_on (count : Nat) :
    (peekI32 count).on s = s.settled ((s.peekI32 count).map fun v => (v.toList, s)) := by
  unfold peekI32 Stack.peekI32
  rw [on_bind, on_get]
  by_cases ha : s.available < count
  · simp [ha, Stack.settled, Except.map]
  · have hl : count ≤ s.operands.length := Nat.le_trans (Nat.not_lt.mp ha) s.available_le
    have hread := Risky.integers_eq_checked count s.operands hl
    have hcheck : (fun v => check v .i32) = Risky.checkI32 := rfl
    simp only [if_neg ha, hcheck]
    cases hc : (s.operands.take count).forM Risky.checkI32 with
    | error f =>
      rw [hc] at hread
      have hi := map_eq_error_iff.mp hread
      simp [hi, Stack.settled, Except.map]
    | ok _ =>
      rw [hc] at hread
      obtain ⟨v, hv, hlist⟩ := map_eq_ok_iff.mp hread
      simp [hv, hlist, Stack.settled, Except.map]

theorem discard_on (count : Nat) :
    (discard count).on s = s.settled ((s.discard count).map fun t => ((), t)) := by
  unfold discard Stack.discard
  by_cases ha : s.available < count
  · simp [on_bind, ha, Stack.settled, Except.map]
  · simp [on_bind, ha, Stack.settled, Except.map]

end InPlace

namespace Stack

variable {s t : Stack} {v : Value} {n : Int32} {rest : List Value} {count : Nat} {f : Fault}

/-- Pops integers one by one, as many as asked for or until one is refused. -/
def popsI32 : Nat → Stack → Except Fault (List Int32 × Stack)
  | 0, s => .ok ([], s)
  | count + 1, s => do
    let (n, t) ← s.popI32
    let (ns, u) ← popsI32 count t
    return (n :: ns, u)

theorem available_popped (ho : s.operands = v :: rest) (ha : s.available ≠ 0) :
    Stack.available { s with operands := rest } + 1 = s.available := by
  simp only [available, base, ho, List.length_cons] at ha ⊢
  omega

theorem popI32_of_integer (ha : s.available ≠ 0) (ho : s.operands = .i32 n :: rest) :
    s.popI32 = .ok (n, { s with operands := rest }) := by
  have hpeek : s.peek = some (.i32 n) := peek_eq_some_iff.mpr ⟨ha, rest, ho⟩
  simp [popI32, hpeek, pop, ha, ho, Except.map]

theorem popI32_of_other (ha : s.available ≠ 0) (ho : s.operands = v :: rest)
    (hv : v.type ≠ .i32) : s.popI32 = .error (.typeMismatch .i32 v.type) := by
  have hpeek : s.peek = some v := peek_eq_some_iff.mpr ⟨ha, rest, ho⟩
  cases v <;> simp_all [popI32, Value.type]

theorem integers_of_other (count : Nat) (rest : List Value) (hv : v.type ≠ .i32) :
    integers (count + 1) (v :: rest) = .error (.typeMismatch .i32 v.type) := by
  cases v <;> simp_all [integers, Value.type]

/-- Popping integers one by one gives what reading them at once gives, last first, and leaves what
lay under them. -/
theorem popsI32_eq (h : count ≤ s.available) :
    popsI32 count s =
      (integers count s.operands).map fun v => (v.toList.reverse, s.dropped count) := by
  induction count generalizing s with
  | zero => rfl
  | succ count ih =>
    cases ho : s.operands with
    | nil => simp [available, ho] at h
    | cons v rest =>
      have ha : s.available ≠ 0 := by omega
      by_cases hv : v.type = .i32
      · obtain ⟨n, rfl⟩ := Value.type_eq_i32_iff.mp hv
        have hrest := available_popped ho ha
        have hpops := @ih { s with operands := rest } (by omega)
        have hdrop : (Stack.mk rest s.frames).dropped count = s.dropped (count + 1) := by
          simp [dropped, ho]
        rw [popsI32, popI32_of_integer ha ho, integers]
        change (popsI32 count { s with operands := rest } >>= fun p => _) = _
        rw [hpops, hdrop]
        cases integers count rest with
        | error f => rfl
        | ok v => simp [Except.map, bind, Except.bind, pure, Except.pure, Vector.toList_push]
      · rw [popsI32, popI32_of_other ha ho hv, integers_of_other count rest hv]
        rfl

/-- The operand that is refused is the topmost that is no integer. -/
theorem integers_topmost {l : List Value} (hl : count ≤ l.length)
    (h : integers count l = .error f) :
    ∃ v, (l.take count).find? (fun v => v.type ≠ .i32) = some v ∧
      f = .typeMismatch .i32 v.type := by
  induction count generalizing l with
  | zero => cases h
  | succ count ih =>
    cases l with
    | nil => simp at hl
    | cons v rest =>
      by_cases hv : v.type = .i32
      · obtain ⟨n, rfl⟩ := Value.type_eq_i32_iff.mp hv
        have hrest : integers count rest = .error f := map_eq_error_iff.mp h
        obtain ⟨w, hw, hf⟩ := ih (Nat.le_of_succ_le_succ hl) hrest
        exact ⟨w, by simpa [hv] using hw, hf⟩
      · rw [integers_of_other count rest hv] at h
        cases h
        exact ⟨v, by simp [hv], rfl⟩

/-- Reading the top operands and taking them off, next to popping them one by one. -/
structure ReadsAsPops (s : Stack) (count : Nat) : Prop where
  underflow : s.available < count →
    s.peekI32 count = .error .stackUnderflow ∧ s.discard count = .error .stackUnderflow
  read : count ≤ s.available → ∀ v : Vector Int32 count,
    s.peekI32 count = .ok v ↔ ∃ t, popsI32 count s = .ok (v.toList.reverse, t)
  taken : count ≤ s.available → ∀ popped t,
    popsI32 count s = .ok (popped, t) → s.discard count = .ok t
  refused : count ≤ s.available → ∀ f,
    s.peekI32 count = .error f ↔ popsI32 count s = .error f
  topmost : count ≤ s.available → ∀ f, s.peekI32 count = .error f →
    ∃ v, (s.operands.take count).find? (fun v => v.type ≠ .i32) = some v ∧
      f = .typeMismatch .i32 v.type

theorem readsAsPops (s : Stack) (count : Nat) : s.ReadsAsPops count where
  underflow h := by simp [peekI32, discard, h]
  read h v := by
    rw [popsI32_eq h, peekI32, if_neg (Nat.not_lt.mpr h)]
    constructor
    · intro hv
      exact ⟨s.dropped count, by rw [hv]; rfl⟩
    · rintro ⟨t, ht⟩
      obtain ⟨w, hw, hp⟩ := map_eq_ok_iff.mp ht
      have hlist : w.toList = v.toList := List.reverse_inj.mp (congrArg Prod.fst hp)
      rw [hw, Vector.toList_inj.mp hlist]
  taken h popped t ht := by
    rw [popsI32_eq h] at ht
    obtain ⟨w, -, hp⟩ := map_eq_ok_iff.mp ht
    obtain ⟨-, rfl⟩ := Prod.mk.inj hp
    exact discard_of_le h
  refused h f := by
    rw [popsI32_eq h, map_eq_error_iff, peekI32, if_neg (Nat.not_lt.mpr h)]
  topmost h f hf := by
    rw [peekI32, if_neg (Nat.not_lt.mpr h)] at hf
    exact integers_topmost (Nat.le_trans h s.available_le) hf

end Stack

/-- An operation in place that does what an operation of the stack does: it gives the same result
and leaves the same stack, or fails for the same fault and leaves the stack as it was. -/
structure InPlace.Does {α : Type} (x : InPlace α) (s : Stack)
    (result : Except Fault (α × Stack)) : Prop where
  succeeds : ∀ a t, x.on s = (.ok a, t) ↔ result = .ok (a, t)
  fails : ∀ e t, x.on s = (.error e, t) ↔ t = s ∧ ∃ f, e = .fault f ∧ result = .error f

theorem InPlace.does_of_on {α : Type} {x : InPlace α} {s : Stack}
    {result : Except Fault (α × Stack)} (h : x.on s = s.settled result) : x.Does s result := by
  constructor
  · intro a t
    rw [h]
    cases result <;> simp [Stack.settled, Prod.ext_iff]
  · intro e t
    rw [h]
    cases result <;> simp [Stack.settled, eq_comm, and_comm]

namespace Stack

/-- Reading operands and then taking them off is popping them one by one, on every stack and for
every number of them; what the stack is left as when an operation fails is what it was, and the
failure is never the one for an integer that is none. -/
theorem peek_then_discard_pops (s : Stack) (count : Nat) :
    s.ReadsAsPops count ∧
    (InPlace.peekI32 count).Does s ((s.peekI32 count).map fun v => (v.toList, s)) ∧
    (InPlace.discard count).Does s ((s.discard count).map fun t => ((), t)) ∧
    InPlace.pop.Does s s.pop ∧
    (∀ type, (InPlace.popTyped type).Does s (s.popTyped type)) ∧
    InPlace.popI32.Does s s.popI32 := by
  have hpeek := InPlace.does_of_on (InPlace.peekI32_on s count)
  have hdiscard := InPlace.does_of_on (InPlace.discard_on s count)
  have hpop := InPlace.does_of_on (InPlace.pop_on s)
  have htyped (type : ValueType) := InPlace.does_of_on (InPlace.popTyped_on s type)
  have hi32 := InPlace.does_of_on (InPlace.popI32_on s)
  exact ⟨s.readsAsPops count, hpeek, hdiscard, hpop, htyped, hi32⟩

/-- The float is met first, the wide integer under it never. -/
example : (Stack.mk [.i32 3, .f32 0, .i64 1] []).peekI32 3 = .error (.typeMismatch .i32 .f32) := rfl

end Stack

end GuestGate
