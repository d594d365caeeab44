import GuestGate.Session
import GuestGate.Proofs.Dispatch

/-!
# Segments of the operand stack

The bases of the frames cut the operand stack into segments, one for each frame and one below them
all. Whatever is done to a stack, by its own operations or by traps, works inside the segment of the
current frame, so what a caller has on the stack outlives every call it makes.
-/

namespace GuestGate

/-- What can be done to a stack: its own operations, and a trap with whatever configuration, store
and host there are at the time. -/
inductive Move where
  | push (v : Value)
  | pushAll (vs : List Value)
  | pop
  | popTyped (type : ValueType)
  | popI32
  | discard (count : Nat)
  | enter (f : Frame)
  | leave
  | trap (number : UInt32) (config : Config) (store : Store) (host : Host)

/-- The number of nested calls that are open after a move within a call, and nothing if the move
leaves the call itself. -/
def Move.depth : Move → Nat → Option Nat
  | .enter _, n => some (n + 1)
  | .leave, 0 => none
  | .leave, n + 1 => some n
  | _, n => some n

/-- The number of nested calls that are open after moves that stay within a call. -/
def openCalls (moves : List Move) (n : Nat) : Option Nat := moves.foldlM (fun n m => m.depth n) n

namespace Stack

/-- The stack that an operation gives, or the one it was given if it fails. -/
def orKeep (s : Stack) : Except Fault Stack → Stack
  | .ok t => t
  | .error _ => s

def after (s : Stack) : Move → Stack
  | .push v => s.push v
  | .pushAll vs => s.pushAll vs
  | .pop => s.orKeep (s.pop.map Prod.snd)
  | .popTyped type => s.orKeep ((s.popTyped type).map Prod.snd)
  | .popI32 => s.orKeep (s.popI32.map Prod.snd)
  | .discard count => s.orKeep (s.discard count)
  | .enter f => s.pushFrame f
  | .leave => s.popFrame.2
  | .trap number config store host =>
    (Machine.dispatch ⟨store, s⟩ host config number).machine.stack

def run (s : Stack) (moves : List Move) : Stack := moves.foldl after s

/-- The bases of the frames from the outermost to the innermost. -/
def bases (s : Stack) : List Nat := (s.frames.map Frame.base).reverse

/-- The operands from one height up to another, bottom first. -/
def between (s : Stack) (low high : Nat) : List Value :=
  (s.snapshot.values.drop low).take (high - low)

/-- The operands below every base, then those of each frame from the outermost to the innermost. -/
def segments (s : Stack) : List (List Value) :=
  List.zipWith s.between (0 :: s.bases) (s.bases ++ [s.operands.length])

/-- A stack whose frames divide it up: no base lies under the base of a frame further out or above
the top, and the segments are the whole stack, the last of them all that the current frame has. -/
structure Divided (s : Stack) : Prop where
  ascending : s.bases.Pairwise (· ≤ ·)
  within : ∀ b ∈ s.bases, b ≤ s.operands.length
  available : s.available + s.base = s.operands.length
  count : s.segments.length = s.frames.length + 1
  whole : s.segments.flatten = s.snapshot.values
  current : s.segments.getLast?.map List.length = some s.available

/-- A stack in a call that was made from another: the caller's operands and frames lie under the
frame of the call, with some number of nested calls above it. -/
structure InCall (caller : Stack) (f : Frame) (n : Nat) (t : Stack) : Prop where
  frames : ∃ nested, nested.length = n ∧
    t.frames = nested ++ { f with base := caller.operands.length } :: caller.frames
  operands : caller.operands <:+ t.operands

/-- The call is left, and what it had becomes the caller's. -/
structure Returns (caller : Stack) (f : Frame) (t : Stack) : Prop where
  frame : t.popFrame.1 = some { f with base := caller.operands.length }
  frames : t.popFrame.2.frames = caller.frames
  operands : t.popFrame.2.operands = t.operands
  kept : caller.operands <:+ t.popFrame.2.operands
  available : t.popFrame.2.available = caller.available + t.available

/-- Some operands of the current frame are taken off and others put in their place. -/
structure Within (s t : Stack) : Prop where
  frames : t.frames = s.frames
  operands : ∃ taken top, taken ≤ s.available ∧ t.operands = top ++ s.operands.drop taken

theorem Within.refl (s : Stack) : s.Within s := ⟨rfl, 0, [], Nat.zero_le _, rfl⟩

theorem within_push (s : Stack) (v : Value) : s.Within (s.push v) :=
  ⟨rfl, 0, [v], Nat.zero_le _, rfl⟩

theorem within_pushAll (s : Stack) (vs : List Value) : s.Within (s.pushAll vs) :=
  ⟨rfl, 0, vs.reverse, Nat.zero_le _, rfl⟩

theorem within_dropped {s : Stack} {count : Nat} (h : count ≤ s.available) :
    s.Within (s.dropped count) := ⟨rfl, count, [], h, rfl⟩

theorem within_orKeep {s : Stack} {result : Except Fault Stack}
    (h : ∀ t, result = .ok t → s.Within t) : s.Within (s.orKeep result) := by
  cases result with
  | ok t => exact h t rfl
  | error f => exact Within.refl s

theorem within_discard {s t : Stack} {count : Nat} (h : s.discard count = .ok t) : s.Within t := by
  obtain ⟨hc, rfl⟩ := discard_eq_ok_iff.mp h
  exact within_dropped hc

theorem within_pop {s t : Stack} {v : Value} (h : s.pop = .ok (v, t)) : s.Within t := by
  unfold pop at h
  split at h
  · cases h
  next ha =>
    split at h
    · cases h
    next hs =>
      cases h
      exact ⟨rfl, 1, [], by omega, by simp [hs]⟩

theorem within_popTyped {s t : Stack} {type : ValueType} {v : Value}
    (h : s.popTyped type = .ok (v, t)) : s.Within t := by
  unfold popTyped at h
  split at h
  · cases h
  · split at h
    · exact within_pop h
    · cases h

theorem within_popI32 {s t : Stack} {n : Int32} (h : s.popI32 = .ok (n, t)) : s.Within t := by
  unfold popI32 at h
  split at h
  · cases h
  · cases hp : s.pop with
    | error f => simp [hp, Except.map] at h
    | ok popped =>
      simp only [hp, Except.map, Except.ok.injEq, Prod.mk.injEq] at h
      obtain ⟨-, rfl⟩ := h
      exact within_pop hp
  · cases h

/-- An operation that also gives a value. -/
theorem within_orKeep_map {α : Type} {s : Stack} {result : Except Fault (α × Stack)}
    (h : ∀ a t, result = .ok (a, t) → s.Within t) : s.Within (s.orKeep (result.map Prod.snd)) := by
  cases result with
  | ok p => exact h p.1 p.2 rfl
  | error f => exact Within.refl s

end Stack

theorem Machine.perform_stack (m : Machine) (host : Host) (number : UInt32) (r : Request)
    (log : List LogEvent) :
    (m.perform host number r log).machine.stack = m.stack ∨
      ∃ n, (m.perform host number r log).machine.stack = m.stack.push (.i32 n) := by
  unfold perform
  split
  · exact .inl rfl
  · dsimp only
    split
    · exact .inl rfl
    · exact .inr ⟨_, rfl⟩

/-- A trap takes no more operands than the current frame has. -/
theorem Machine.dispatch_within (m : Machine) (host : Host) (config : Config) (number : UInt32) :
    m.stack.Within (m.dispatch host config number).machine.stack := by
  rcases m.dispatch_cases config number with ⟨f, log, -, hd⟩ | ⟨s, v, r, rfl, hp⟩
  · rw [hd]
    exact .refl _
  · have hw : m.stack.Within (m.taken s).stack := Stack.within_dropped hp.arity_le
    rw [hp.dispatch_eq]
    rcases (m.taken s).perform_stack host s.number r (s.preamble m.stack.available v r) with
      he | ⟨n, he⟩
    · rw [he]
      exact hw
    · rw [he]
      exact ⟨rfl, s.arity, [.i32 n], hp.arity_le, rfl⟩

namespace Stack

/-- A move enters a call, leaves one, or works within the current frame. -/
theorem after_cases (s : Stack) (m : Move) :
    (∃ f, m = .enter f ∧ s.after m = s.pushFrame f) ∨ (m = .leave ∧ s.after m = s.popFrame.2) ∨
      ((∀ n, m.depth n = some n) ∧ s.Within (s.after m)) := by
  cases m with
  | enter f => exact .inl ⟨f, rfl, rfl⟩
  | leave => exact .inr (.inl ⟨rfl, rfl⟩)
  | push v => exact .inr (.inr ⟨fun _ => rfl, within_push s v⟩)
  | pushAll vs => exact .inr (.inr ⟨fun _ => rfl, within_pushAll s vs⟩)
  | pop => exact .inr (.inr ⟨fun _ => rfl, within_orKeep_map fun _ _ => within_pop⟩)
  | popTyped type => exact .inr (.inr ⟨fun _ => rfl, within_orKeep_map fun _ _ => within_popTyped⟩)
  | popI32 => exact .inr (.inr ⟨fun _ => rfl, within_orKeep_map fun _ _ => within_popI32⟩)
  | discard count => exact .inr (.inr ⟨fun _ => rfl, within_orKeep fun _ => within_discard⟩)
  | trap number config store host =>
    exact .inr (.inr ⟨fun _ => rfl, Machine.dispatch_within ⟨store, s⟩ host config number⟩)

theorem popFrame_of_frames {s : Stack} {f : Frame} {rest : List Frame} (h : s.frames = f :: rest) :
    s.popFrame = (some f, { s with frames := rest }) := by
  rw [popFrame, h]

/-- Every frame's base lies at or below the top and at or above those further out. -/
structure Nested (s : Stack) : Prop where
  within : ∀ f ∈ s.frames, f.base ≤ s.operands.length
  descending : s.frames.Pairwise fun inner outer => outer.base ≤ inner.base

theorem nested_empty : ({} : Stack).Nested := ⟨by simp, by simp⟩

namespace Nested

variable {s t : Stack}

theorem base_le_length (h : s.Nested) : s.base ≤ s.operands.length := by
  unfold base
  split
  · exact Nat.zero_le _
  next f rest hf => exact h.within f (by simp [hf])

/-- The innermost base is the highest. -/
theorem le_base (h : s.Nested) {f : Frame} (hf : f ∈ s.frames) : f.base ≤ s.base := by
  have hd := h.descending
  unfold base
  split
  next he => simp [he] at hf
  next g rest he =>
    rw [he] at hf hd
    rcases List.mem_cons.mp hf with rfl | hr
    · exact Nat.le_refl _
    · exact (List.pairwise_cons.mp hd).1 f hr

theorem available_add_base (h : s.Nested) : s.available + s.base = s.operands.length :=
  Nat.sub_add_cancel h.base_le_length

/-- Work within the current frame leaves all operands below its base. -/
theorem base_le_of_within (h : s.Nested) (hw : s.Within t) :
    ∃ kept, kept <:+ s.operands ∧ kept <:+ t.operands ∧ s.base ≤ kept.length := by
  obtain ⟨taken, top, ht, ho⟩ := hw.operands
  have ha := h.available_add_base
  refine ⟨s.operands.drop taken, List.drop_suffix .., ho ▸ List.suffix_append .., ?_⟩
  rw [List.length_drop]
  omega

theorem of_within (h : s.Nested) (hw : s.Within t) : t.Nested := by
  obtain ⟨kept, -, hk, hb⟩ := h.base_le_of_within hw
  refine ⟨fun f hf => ?_, hw.frames ▸ h.descending⟩
  rw [hw.frames] at hf
  have hf' : f.base ≤ s.base := h.le_base hf
  have hl : kept.length ≤ t.operands.length := hk.length_le
  omega

theorem pushFrame (h : s.Nested) (f : Frame) : (s.pushFrame f).Nested := by
  refine ⟨?_, List.pairwise_cons.mpr ⟨h.within, h.descending⟩⟩
  intro g hg
  rcases List.mem_cons.mp hg with rfl | hr
  · exact Nat.le_refl _
  · exact h.within g hr

theorem popFrame (h : s.Nested) : s.popFrame.2.Nested := by
  unfold Stack.popFrame
  split
  · exact h
  next f rest hf =>
    have hd := h.descending
    rw [hf] at hd
    exact ⟨fun g hg => h.within g (by simp [hf, hg]), (List.pairwise_cons.mp hd).2⟩

theorem after (h : s.Nested) (m : Move) : (s.after m).Nested := by
  rcases s.after_cases m with ⟨f, -, he⟩ | ⟨-, he⟩ | ⟨-, hw⟩
  · rw [he]
    exact h.pushFrame f
  · rw [he]
    exact h.popFrame
  · exact h.of_within hw

/-- No run of moves breaks the nesting. -/
theorem run (h : s.Nested) (moves : List Move) : (s.run moves).Nested := by
  induction moves generalizing s with
  | nil => exact h
  | cons m rest ih => exact ih (h.after m)

theorem bases_ascending (h : s.Nested) : s.bases.Pairwise (· ≤ ·) := by
  rw [bases, List.pairwise_reverse, List.pairwise_map]
  exact h.descending

theorem bases_within (h : s.Nested) : ∀ b ∈ s.bases, b ≤ s.operands.length := by
  intro b hb
  obtain ⟨f, hf, rfl⟩ := List.mem_map.mp (List.mem_reverse.mp hb)
  exact h.within f hf

end Nested

theorem between_append (s : Stack) {low middle high : Nat} (hl : low ≤ middle)
    (hh : middle ≤ high) : s.between low middle ++ s.between middle high = s.between low high := by
  have hd : s.snapshot.values.drop middle = (s.snapshot.values.drop low).drop (middle - low) := by
    rw [List.drop_drop, Nat.add_sub_cancel' hl]
  rw [between, between, between, hd, ← List.take_add]
  congr 1
  omega

/-- Cuts in ascending order leave nothing out and put nothing in twice. -/
theorem flatten_between (s : Stack) {cuts : List Nat} {low high : Nat}
    (hc : (low :: cuts).Pairwise (· ≤ ·)) (hh : ∀ c ∈ low :: cuts, c ≤ high) :
    (List.zipWith s.between (low :: cuts) (cuts ++ [high])).flatten = s.between low high := by
  induction cuts generalizing low with
  | nil => simp
  | cons middle rest ih =>
    obtain ⟨hl, hr⟩ := List.pairwise_cons.mp hc
    rw [List.cons_append, List.zipWith_cons_cons, List.flatten_cons,
      ih hr fun c h => hh c (List.mem_cons_of_mem _ h)]
    exact s.between_append (hl middle (by simp)) (hh middle (by simp))

theorem length_values (s : Stack) : s.snapshot.values.length = s.operands.length := by
  simp [snapshot]

theorem length_segments (s : Stack) : s.segments.length = s.frames.length + 1 := by
  simp [segments, bases]

/-- The last segment runs from the innermost base to the top. -/
theorem getLast?_segments (s : Stack) :
    s.segments.getLast? = some (s.between s.base s.operands.length) := by
  unfold segments bases base
  cases s.frames with
  | nil => rfl
  | cons f rest =>
    have hl : (0 :: (rest.map Frame.base).reverse).length =
        ((rest.map Frame.base).reverse ++ [f.base]).length := by simp
    rw [List.map_cons, List.reverse_cons, ← List.cons_append, List.zipWith_append hl]
    exact List.getLast?_concat

theorem length_between {s : Stack} {low high : Nat} (hh : high ≤ s.operands.length) :
    (s.between low high).length = high - low := by
  rw [between, List.length_take, List.length_drop, length_values]
  omega

theorem Nested.divided {s : Stack} (h : s.Nested) : s.Divided where
  ascending := h.bases_ascending
  within := h.bases_within
  available := h.available_add_base
  count := s.length_segments
  whole := by
    have hc : (0 :: s.bases).Pairwise (· ≤ ·) :=
      List.pairwise_cons.mpr ⟨fun b _ => Nat.zero_le b, h.bases_ascending⟩
    have hh : ∀ c ∈ 0 :: s.bases, c ≤ s.operands.length := by
      intro c hc
      rcases List.mem_cons.mp hc with rfl | hb
      · exact Nat.zero_le _
      · exact h.bases_within c hb
    have hall : s.between 0 s.operands.length = s.snapshot.values := by
      rw [between, Nat.sub_zero, ← length_values, List.drop_zero, List.take_length]
    rw [segments, flatten_between s hc hh, hall]
  current := by
    rw [getLast?_segments, Option.map_some, length_between (Nat.le_refl _)]
    rfl

namespace InCall

variable {caller t : Stack} {f : Frame} {n k : Nat}

theorem pushFrame (caller : Stack) (f : Frame) : InCall caller f 0 (caller.pushFrame f) :=
  ⟨⟨[], rfl, rfl⟩, List.suffix_refl _⟩

/-- The call's own base is not above the base of the current frame. -/
theorem length_le_base (h : InCall caller f n t) (ht : t.Nested) :
    caller.operands.length ≤ t.base := by
  obtain ⟨nested, -, hf⟩ := h.frames
  have hmem : { f with base := caller.operands.length } ∈ t.frames := by simp [hf]
  exact ht.le_base hmem

theorem of_within {u : Stack} (h : InCall caller f n t) (ht : t.Nested) (hw : t.Within u) :
    InCall caller f n u := by
  obtain ⟨kept, hs, hk, hb⟩ := ht.base_le_of_within hw
  have hl := h.length_le_base ht
  have hkept : caller.operands <:+ kept :=
    List.suffix_of_suffix_length_le h.operands hs (Nat.le_trans hl hb)
  exact ⟨hw.frames ▸ h.frames, hkept.trans hk⟩

theorem enter (h : InCall caller f n t) (g : Frame) : InCall caller f (n + 1) (t.pushFrame g) := by
  obtain ⟨nested, hn, hf⟩ := h.frames
  refine ⟨⟨{ g with base := t.operands.length } :: nested, by simp [hn], ?_⟩, h.operands⟩
  simp [Stack.pushFrame, hf]

theorem leave (h : InCall caller f (n + 1) t) : InCall caller f n t.popFrame.2 := by
  obtain ⟨nested, hn, hf⟩ := h.frames
  cases nested with
  | nil => cases hn
  | cons g rest =>
    rw [popFrame_of_frames hf]
    exact ⟨⟨rest, by simpa using hn, rfl⟩, h.operands⟩

/-- A move that does not leave the call leaves what is under it alone. -/
theorem after (h : InCall caller f n t) (ht : t.Nested) {m : Move} (hm : m.depth n = some k) :
    InCall caller f k (t.after m) := by
  rcases t.after_cases m with ⟨g, rfl, he⟩ | ⟨rfl, he⟩ | ⟨hd, hw⟩
  · cases hm
    rw [he]
    exact h.enter g
  · cases n with
    | zero => cases hm
    | succ n =>
      cases hm
      rw [he]
      exact h.leave
  · obtain rfl : n = k := Option.some.inj ((hd n).symm.trans hm)
    exact h.of_within ht hw

theorem run (h : InCall caller f n t) (ht : t.Nested) {moves : List Move}
    (hm : openCalls moves n = some k) : InCall caller f k (t.run moves) := by
  induction moves generalizing t n with
  | nil =>
    cases hm
    exact h
  | cons m rest ih =>
    obtain ⟨l, hl, hr⟩ := Option.bind_eq_some_iff.mp hm
    exact ih (h.after ht hl) (ht.after m) hr

/-- A call with no nested call open is the one that is left next. -/
theorem returns (h : InCall caller f 0 t) (hc : caller.Nested) (ht : t.Nested) :
    Returns caller f t := by
  obtain ⟨nested, hn, hf⟩ := h.frames
  obtain rfl := List.length_eq_zero_iff.mp hn
  have hpop := popFrame_of_frames hf
  have hbase : t.base = caller.operands.length := by simp [base, hf]
  have hcaller := hc.available_add_base
  have hcallee := ht.available_add_base
  have hleft : t.popFrame.2.available = t.operands.length - caller.base := by
    rw [hpop]
    rfl
  refine ⟨by rw [hpop], by rw [hpop], by rw [hpop], by rw [hpop]; exact h.operands, ?_⟩
  rw [hleft]
  omega

end InCall

/-- However a stack came about, its frames divide it up, and whatever is done within a call leaves
what the caller had as it was, with all that the call leaves on top of it in the end. -/
theorem calls_isolated (before : List Move) :
    (({} : Stack).run before).Divided ∧
    ∀ f within n, openCalls within 0 = some n →
      InCall (({} : Stack).run before) f n (((({} : Stack).run before).pushFrame f).run within) ∧
      (n = 0 → Returns (({} : Stack).run before) f
        (((({} : Stack).run before).pushFrame f).run within)) := by
  have hcaller : (({} : Stack).run before).Nested := nested_empty.run before
  refine ⟨hcaller.divided, fun f within n hn => ?_⟩
  have hcall := (InCall.pushFrame (({} : Stack).run before) f).run (hcaller.pushFrame f) hn
  refine ⟨hcall, ?_⟩
  rintro rfl
  exact hcall.returns hcaller ((hcaller.pushFrame f).run within)

/-- A frame that claims a base of its own, as if it were the first. -/
def bareFrame : Frame := ⟨⟨"guest", []⟩, 0, [], 0⟩

/-- Operations that fail, a nested call that leaves a result, and two traps, the second for want of
a memory. -/
def busyCall : List Move :=
  [.discard 1, .push (.i64 7), .popI32, .enter bareFrame, .pop, .push (.i32 3), .push (.i32 9),
    .leave, .trap Syscall.kill.number .permissive {} (.replying ⟨0, 0, [], [], 0⟩),
    .trap Syscall.accept.number .permissive {} (.replying ⟨0, 0, [], [], 0⟩)]

theorem busyCall_isolated :
    openCalls busyCall 0 = some 0 ∧
    (({} : Stack).run [.push (.i32 1), .enter bareFrame, .push (.i32 2)]).Divided ∧
    (((({} : Stack).run [.push (.i32 1), .enter bareFrame, .push (.i32 2)]).pushFrame bareFrame).run
      busyCall).operands = [.i32 0, .i64 7, .i32 2, .i32 1] ∧
    Returns (({} : Stack).run [.push (.i32 1), .enter bareFrame, .push (.i32 2)]) bareFrame
      (((({} : Stack).run [.push (.i32 1), .enter bareFrame, .push (.i32 2)]).pushFrame
        bareFrame).run busyCall) := by
  have h := calls_isolated [.push (.i32 1), .enter bareFrame, .push (.i32 2)]
  exact ⟨rfl, h.1, by decide, (h.2 bareFrame busyCall 0 rfl).2 rfl⟩

end Stack

namespace Session

/-- A stack that comes of another by moves. -/
def Reaches (s t : Stack) : Prop := ∃ moves, t = s.run moves

theorem Reaches.refl (s : Stack) : Reaches s s := ⟨[], rfl⟩

theorem Reaches.trans {s t u : Stack} (h : Reaches s t) (k : Reaches t u) : Reaches s u := by
  obtain ⟨first, rfl⟩ := h
  obtain ⟨second, rfl⟩ := k
  exact ⟨first ++ second, (List.foldl_append ..).symm⟩

variable {s : Session}

theorem stack_popped {α : Type} (result : Except Fault (α × Stack)) (f : α → Answer) :
    (step.popped s result f).after.machine.stack =
      s.machine.stack.orKeep (result.map Prod.snd) := by
  cases result <;> rfl

theorem stack_give (result : Except Fault Answer) :
    (s.give result).after.machine.stack = s.machine.stack := by
  cases result <;> rfl

theorem stack_onMemory {a : MemoryAddress} {access : Access} {act : Cell → Report}
    (h : ∀ c, (act c).after.machine.stack = s.machine.stack) :
    (s.onMemory a access act).after.machine.stack = s.machine.stack := by
  unfold onMemory
  split
  · rfl
  · split
    · exact h _
    · rfl

theorem stack_memoryStep (a : MemoryAddress) (m : Memory) (step : MemoryStep) :
    (s.memoryStep a m step).after.machine.stack = s.machine.stack := by
  unfold memoryStep
  split <;> rfl

/-- A step of a session is moves of its stack. -/
theorem step_reaches (s : Session) (step : Step) :
    Reaches s.machine.stack (s.step step).after.machine.stack := by
  cases step
  case push v => exact ⟨[.push v], rfl⟩
  case pushAll vs => exact ⟨[.pushAll vs], rfl⟩
  case pop => exact ⟨[.pop], stack_popped ..⟩
  case popTyped type => exact ⟨[.popTyped type], stack_popped ..⟩
  case popI32 => exact ⟨[.popI32], stack_popped ..⟩
  case discard count =>
    refine ⟨[.discard count], (stack_popped ..).trans ?_⟩
    cases hd : s.machine.stack.discard count <;> simp [hd, Except.map, Stack.run, Stack.after]
  case pushFrame moduleIndex function locals base =>
    unfold Session.step
    dsimp only
    split
    next guestModule _ => exact ⟨[.enter ⟨guestModule, function, locals, base⟩], rfl⟩
    · exact .refl _
  case popFrame => exact ⟨[.leave], rfl⟩
  case call number operands host =>
    exact ⟨[.pushAll (operands.map .i32), .trap number s.config s.machine.store host], rfl⟩
  case peekI32 | currentFrame => exact ⟨[], stack_give _⟩
  case memory => exact ⟨[], stack_onMemory fun c => stack_memoryStep ..⟩
  case hold => exact ⟨[], stack_onMemory fun c => rfl⟩
  case configure | allocate =>
    unfold Session.step
    dsimp only
    split <;> exact .refl _
  all_goals exact .refl _

theorem run_reaches (s : Session) (steps : List Step) :
    ∀ report ∈ s.run steps, Reaches s.machine.stack report.after.machine.stack := by
  refine run_forall (I := fun t => Reaches s.machine.stack t.machine.stack)
    (fun t ht step _ => ?_) (.refl _)
  have hstep := ht.trans (t.step_reaches step)
  exact ⟨hstep, hstep⟩

theorem start_reaches {setup : Setup} (h : start setup = .ok s) : Reaches {} s.machine.stack := by
  unfold start at h
  simp only [bind, Except.bind] at h
  split at h
  · cases h
  split at h
  · cases h
  split at h
  · cases h
    exact .refl _
  · split at h
    next guestModule _ =>
      cases h
      exact ⟨[.enter ⟨guestModule, 0, [], 0⟩], rfl⟩
    · cases h

/-- The frames of a session divide its stack up after every step. -/
theorem run_divided {setup : Setup} (h : start setup = .ok s) (steps : List Step) :
    ∀ report ∈ s.run steps, report.after.machine.stack.Divided := by
  intro report hr
  obtain ⟨moves, he⟩ := (start_reaches h).trans (s.run_reaches steps report hr)
  rw [he]
  exact (Stack.nested_empty.run moves).divided

end Session

end GuestGate
