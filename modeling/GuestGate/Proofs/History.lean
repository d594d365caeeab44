import GuestGate.Memory.Step
import GuestGate.Proofs.MemoryView

/-!
# Memories and their histories

The history of a memory says how far it has grown and what was written to it, the latest write
first. A byte of a memory is the byte of the latest write that covers it, or zero. After every run
of steps a memory is what its history says, however wide the steps that wrote a byte or read it.
-/

namespace GuestGate

/-- A word in bytes, the lowest bits first. -/
def lowestFirst (n : UInt32) : List UInt8 :=
  ([0, 8, 16, 24] : List UInt32).map fun bits => (n >>> bits).toUInt8

theorem ofWord_eq_lowestFirst (n : UInt32) : Bytes.ofWord n = lowestFirst n := by
  simp only [Bytes.ofWord, lowestFirst, List.map_cons, List.map_nil, List.cons.injEq, and_true]
  refine ⟨?_, ?_, ?_, ?_⟩ <;> apply UInt8.toNat_inj.mp <;> simp [Nat.shiftRight_eq_div_pow]

/-- What a step asks of a memory. -/
inductive MemoryStep.Demand where
  /-- Neither room to grow nor a range known beforehand. -/
  | query
  | growth (delta : Nat)
  | read (offset : UInt32) (length : Nat)
  /-- A range, and bytes to write from a place on. -/
  | write (offset : UInt32) (length start : Nat) (data : List UInt8)

namespace MemoryStep

def demand : MemoryStep → Demand
  | .info | .string _ | .strings _ => .query
  | .grow delta => .growth delta
  | .readByte offset => .read offset 1
  | .readWord offset => .read offset 4
  | .slice offset length => .read offset length
  | .writeByte offset value => .write offset 1 offset.toNat [value]
  | .writeWord offset value => .write offset 4 offset.toNat (lowestFirst value)
  | .write offset data => .write offset data.length offset.toNat data
  | .fill offset length value => .write offset length offset.toNat (List.replicate length value)
  | .store offset length place data _ => .write offset length (offset.toNat + place) data

/-- The range that a step accesses. -/
def range? (step : MemoryStep) : Option (UInt32 × Nat) :=
  match step.demand with
  | .query | .growth _ => none
  | .read offset length => some (offset, length)
  | .write offset length _ _ => some (offset, length)

variable {step : MemoryStep} {offset : UInt32} {length start : Nat} {data : List UInt8}

/-- A step writes inside the range it accesses. -/
theorem write_inside (h : step.demand = .write offset length start data) :
    start + data.length ≤ offset.toNat + length := by
  cases step <;> cases h
  case store inside => omega
  all_goals simp [lowestFirst]

theorem run_query (h : step.demand = .query) {m m' : Memory} {a : MemoryAnswer}
    (hr : step.run m = .ok (a, m')) : m' = m :=
  eq_of_run hr (by cases step <;> cases h <;> rfl)

/-- A read changes nothing, and fails exactly if its range is not inside the memory. -/
theorem run_read (h : step.demand = .read offset length) (m : Memory) :
    if m.Contains offset length then ∃ a, step.run m = .ok (a, m)
    else step.run m = .error (m.outOfBounds offset length) := by
  split
  next hc =>
    cases step <;> cases h
    case readByte => exact ⟨_, by rw [run, Memory.readByte, dif_pos hc]; rfl⟩
    case readWord => exact ⟨_, by rw [run, Memory.readWord, dif_pos hc]; rfl⟩
    case slice => exact ⟨_, by rw [run, Memory.slice, if_pos hc]; rfl⟩
  next hc =>
    cases step <;> cases h
    case readByte => rw [run, Memory.readByte, dif_neg hc]; rfl
    case readWord => rw [run, Memory.readWord, dif_neg hc]; rfl
    case slice => rw [run, Memory.slice, if_neg hc]; rfl

theorem run_write (h : step.demand = .write offset length start data) (m : Memory) :
    step.run m = if m.Contains offset length then .ok (.done, m.put start data)
      else .error (m.outOfBounds offset length) := by
  have hmap {c : Prop} [Decidable c] {written : Memory} {f : Fault} :
      (if c then Except.ok written else .error f).map (fun m => (MemoryAnswer.done, m)) =
        if c then .ok (.done, written) else .error f := by
    split <;> rfl
  cases step <;> cases h
  case writeWord =>
    rw [← ofWord_eq_lowestFirst]
    exact hmap
  all_goals exact hmap

/-- An access succeeds exactly if its range is inside the memory. -/
theorem run_ok_iff (h : step.range? = some (offset, length)) (m : Memory) :
    (∃ result, step.run m = .ok result) ↔ m.Contains offset length := by
  rw [range?] at h
  cases hd : step.demand with
  | query => rw [hd] at h; cases h
  | growth delta => rw [hd] at h; cases h
  | read offset length =>
    rw [hd] at h
    cases h
    have hr := run_read hd m
    split at hr
    next hc =>
      obtain ⟨a, ha⟩ := hr
      exact ⟨fun _ => hc, fun _ => ⟨_, ha⟩⟩
    next hc => simp [hr, hc]
  | write offset length start data =>
    rw [hd] at h
    cases h
    rw [run_write hd]
    split
    next hc => exact ⟨fun _ => hc, fun _ => ⟨_, rfl⟩⟩
    next hc => simp [hc]

end MemoryStep

/-- How far a memory has grown and what was written to it, the latest write first. -/
structure History where
  pages : Nat
  maximum : Option Nat
  writes : List (Nat × List UInt8)
deriving DecidableEq, Repr

/-- The byte of the first of some writes that covers a place, or zero. -/
def latest (i : Nat) : List (Nat × List UInt8) → UInt8
  | [] => 0
  | (start, data) :: earlier =>
    if h : start ≤ i ∧ i < start + data.length then
      have : i - start < data.length := by omega
      data[i - start]
    else latest i earlier

namespace History

def ofPages (pages : Nat) (maximum : Option Nat) : History where
  pages := pages
  maximum := maximum
  writes := []

def size (h : History) : Nat := h.pages * 65536

def byte (h : History) (i : Nat) : UInt8 := latest i h.writes

/-- Four bytes as a number, the least significant first. -/
def word (h : History) (i : Nat) : Nat :=
  (h.byte i).toNat + 256 * (h.byte (i + 1)).toNat + 65536 * (h.byte (i + 2)).toNat +
    16777216 * (h.byte (i + 3)).toNat

def grow (h : History) (delta : Nat) : History :=
  if h.pages + delta ≤ h.maximum.getD 65536 then { h with pages := h.pages + delta } else h

def write (h : History) (offset : UInt32) (length start : Nat) (data : List UInt8) : History :=
  if offset.toNat + length ≤ h.size then { h with writes := (start, data) :: h.writes } else h

/-- The history after a step; a step that cannot be done leaves no trace. -/
def next (h : History) (step : MemoryStep) : History :=
  match step.demand with
  | .query | .read .. => h
  | .growth delta => h.grow delta
  | .write offset length start data => h.write offset length start data

def after (h : History) (steps : List MemoryStep) : History := steps.foldl next h

end History

/-- One more write lies over the earlier ones. -/
theorem latest_cons {start i : Nat} {data : List UInt8} {earlier : List (Nat × List UInt8)} :
    some (latest i ((start, data) :: earlier)) =
      overlay start data (fun i => some (latest i earlier)) i := by
  rw [latest, overlay]
  split
  · rw [List.getElem?_eq_getElem]
  · rfl

theorem latest_eq_zero {writes : List (Nat × List UInt8)} {i : Nat}
    (h : ∀ w ∈ writes, w.1 + w.2.length ≤ i) : latest i writes = 0 := by
  induction writes with
  | nil => rfl
  | cons w earlier ih =>
    obtain ⟨hw, hrest⟩ := List.forall_mem_cons.mp h
    rw [latest, dif_neg (by omega)]
    exact ih hrest

namespace Memory

/-- The memory after a step, which is as it was if the step failed. -/
def next (m : Memory) (step : MemoryStep) : Memory :=
  match step.run m with
  | .ok (_, after) => after
  | .error _ => m

def after (m : Memory) (steps : List MemoryStep) : Memory := steps.foldl next m

variable {m : Memory} {step : MemoryStep} {offset : UInt32} {length : Nat}

theorem next_of_ok {m' : Memory} {a : MemoryAnswer} (h : step.run m = .ok (a, m')) :
    m.next step = m' := by
  rw [next, h]

theorem next_of_error {f : Fault} (h : step.run m = .error f) : m.next step = m := by
  rw [next, h]

theorem next_query (h : step.demand = .query) : m.next step = m := by
  rw [next]
  split
  next hr => exact MemoryStep.run_query h hr
  next => rfl

theorem next_read (h : step.demand = .read offset length) : m.next step = m := by
  have hr := MemoryStep.run_read h m
  split at hr
  · obtain ⟨a, ha⟩ := hr
    exact next_of_ok ha
  · exact next_of_error hr

theorem next_write {start : Nat} {data : List UInt8}
    (h : step.demand = .write offset length start data) :
    m.next step = if m.Contains offset length then m.put start data else m := by
  rw [next, MemoryStep.run_write h]
  by_cases hc : m.Contains offset length
  · rw [if_pos hc, if_pos hc]
  · rw [if_neg hc, if_neg hc]

theorem next_growth {delta : Nat} (h : step.demand = .growth delta) :
    m.next step = (m.grow? delta).getD m := by
  cases step <;> cases h
  rw [next, MemoryStep.run]
  cases m.grow? delta <;> rfl

/-- A larger memory with the bytes of a smaller one and zeros after them. -/
structure Grown (m : Memory) (delta : Nat) (grown : Memory) : Prop where
  pages : grown.pages = m.pages + delta
  maximum : grown.maximum = m.maximum
  kept : ∀ i < m.size, grown.view i = m.view i
  fresh : ∀ i, m.size ≤ i → i < grown.size → grown.view i = some 0

theorem grow?_of_room {delta : Nat} (h : m.pages + delta ≤ m.maximum.getD maxPages) :
    ∃ grown, m.grow? delta = some grown ∧ m.Grown delta grown := by
  refine ⟨_, dif_pos h, rfl, rfl, fun i hi => ?_, fun i hge hlt => ?_⟩
  · rw [view, view, bytes_extended, Array.getElem?_append_left (m.size_bytes.symm ▸ hi)]
  · rw [← size_bytes, bytes_extended, Array.size_append] at hlt
    rw [← size_bytes] at hge
    rw [view, bytes_extended, Array.getElem?_append_right hge, Array.getElem?_eq_getElem (by omega),
      Array.getElem_replicate]

theorem grow?_of_full {delta : Nat} (h : m.maximum.getD maxPages < m.pages + delta) :
    m.grow? delta = none := dif_neg (by omega)

/-- A memory with the bytes, the size and the maximum that a history gives it. -/
structure Recounts (m : Memory) (h : History) : Prop where
  pages : m.pages = h.pages
  maximum : m.maximum = h.maximum
  inside : ∀ w ∈ h.writes, w.1 + w.2.length ≤ h.size
  view : ∀ i < m.size, m.view i = some (h.byte i)

namespace Recounts

variable {h : History} {start : Nat} {data : List UInt8}

theorem size_eq (hr : m.Recounts h) : m.size = h.size := by
  rw [size_eq_mul, hr.pages]
  rfl

theorem write_of_contains (hr : m.Recounts h) (hc : m.Contains offset length) :
    h.write offset length start data = { h with writes := (start, data) :: h.writes } := by
  rw [Contains, hr.size_eq] at hc
  exact if_pos hc

theorem write_of_not_contains (hr : m.Recounts h) (hc : ¬m.Contains offset length) :
    h.write offset length start data = h := by
  rw [Contains, hr.size_eq] at hc
  exact if_neg hc

theorem write (hr : m.Recounts h) (hd : step.demand = .write offset length start data) :
    (m.next step).Recounts (h.write offset length start data) := by
  rw [next_write hd]
  by_cases hc : m.Contains offset length
  · have hin : start + data.length ≤ m.size := Nat.le_trans (MemoryStep.write_inside hd) hc
    have hsize : start + data.length ≤ h.size := hr.size_eq ▸ hin
    rw [if_pos hc, hr.write_of_contains hc]
    have hp := (m.pages_put start data).trans hr.pages
    have hm := (m.maximum_put start data).trans hr.maximum
    refine ⟨hp, hm, List.forall_mem_cons.mpr ⟨hsize, hr.inside⟩, fun i hi => ?_⟩
    rw [size_put] at hi
    rw [view_put hin, History.byte, latest_cons, overlay, overlay, hr.view i hi]
    rfl
  · rw [if_neg hc, hr.write_of_not_contains hc]
    exact hr

theorem grow {delta : Nat} (hr : m.Recounts h) (hd : step.demand = .growth delta) :
    (m.next step).Recounts (h.grow delta) := by
  have hs := hr.size_eq
  rw [next_growth hd, History.grow, ← hr.pages, ← hr.maximum]
  by_cases hroom : m.pages + delta ≤ m.maximum.getD maxPages
  · obtain ⟨grown, hg, hp, hm, hkept, hfresh⟩ := grow?_of_room hroom
    rw [hg, if_pos (show m.pages + delta ≤ m.maximum.getD 65536 from hroom)]
    refine ⟨hp, hm, fun w hw => ?_, fun i hi => ?_⟩
    · have hle : h.size ≤ (m.pages + delta) * 65536 := by
        rw [hr.pages]
        exact Nat.mul_le_mul_right _ (Nat.le_add_right ..)
      exact Nat.le_trans (hr.inside w hw) hle
    · by_cases hold : i < m.size
      · exact (hkept i hold).trans (hr.view i hold)
      · -- No write reaches past the size that the memory had when it was made.
        have hz : h.byte i = 0 := latest_eq_zero fun w hw => by
          have := hr.inside w hw
          omega
        exact (hfresh i (by omega) hi).trans (congrArg some hz.symm)
  · rw [grow?_of_full (by omega), if_neg (show ¬m.pages + delta ≤ m.maximum.getD 65536 from hroom)]
    exact hr

/-- One step keeps a memory to its history. -/
theorem next (hr : m.Recounts h) (step : MemoryStep) : (m.next step).Recounts (h.next step) := by
  unfold History.next
  cases hd : step.demand with
  | query => rwa [next_query hd]
  | read offset length => rwa [next_read hd]
  | growth delta => exact hr.grow hd
  | write offset length start data => exact hr.write hd

theorem after (hr : m.Recounts h) (steps : List MemoryStep) :
    (m.after steps).Recounts (h.after steps) := by
  induction steps generalizing m h with
  | nil => exact hr
  | cons step rest ih => exact ih (hr.next step)

end Recounts

theorem readByte_of_view {b : UInt8} (h : m.view offset.toNat = some b) :
    m.readByte offset = .ok b := by
  obtain ⟨hlt, rfl⟩ := view_eq_some_iff.mp h
  exact dif_pos (show offset.toNat + 1 ≤ m.size from hlt)

theorem slice_of_view {byte : Nat → UInt8} (hc : m.Contains offset length)
    (h : ∀ i < m.size, m.view i = some (byte i)) :
    m.slice offset length = .ok ((List.range length).map fun k => byte (offset.toNat + k)) := by
  refine slice_eq_ok_iff.mpr ⟨hc, List.ext_getElem? fun k => ?_⟩
  rw [Contains] at hc
  by_cases hk : k < length
  · have hlt : k < min (offset.toNat + length) m.bytes.size - offset.toNat := by
      rw [← size_bytes] at hc
      omega
    rw [Array.getElem?_toList, Array.getElem?_extract, if_pos hlt]
    rw [List.getElem?_map, List.getElem?_range hk]
    exact h (offset.toNat + k) (by omega)
  · rw [Array.getElem?_toList, Array.getElem?_extract, if_neg (by omega)]
    rw [List.getElem?_map, List.getElem?_eq_none (by simpa using hk)]
    rfl

/-- What every operation on a memory does, said by its history alone: the sizes, which accesses
succeed, the bytes that are read, what is written down and what growing does. -/
structure Behaves (m : Memory) (h : History) : Prop where
  pages : m.pages = h.pages
  maximum : m.maximum = h.maximum
  size : m.size = m.pages * 65536
  bounded : m.pages ≤ m.maximum.getD 65536 ∧ m.maximum.getD 65536 ≤ 65536
  access : ∀ (step : MemoryStep) offset length, step.range? = some (offset, length) →
    ((∃ result, step.run m = .ok result) ↔ offset.toNat + length ≤ m.size)
  readByte : ∀ offset, offset.toNat + 1 ≤ m.size →
    (MemoryStep.readByte offset).run m = .ok (.byte (h.byte offset.toNat), m)
  readWord : ∀ offset, offset.toNat + 4 ≤ m.size →
    ∃ n, (MemoryStep.readWord offset).run m = .ok (.word n, m) ∧ n.toNat = h.word offset.toNat
  slice : ∀ offset length, offset.toNat + length ≤ m.size →
    (MemoryStep.slice offset length).run m =
      .ok (.bytes ((List.range length).map fun k => h.byte (offset.toNat + k)), m)
  /-- A write that succeeds is the latest write. -/
  recorded : ∀ (step : MemoryStep) offset length start data,
    step.demand = .write offset length start data → (∃ result, step.run m = .ok result) →
      h.next step = { h with writes := (start, data) :: h.writes }
  failed : ∀ (step : MemoryStep) f, step.run m = .error f → m.next step = m ∧ h.next step = h
  grown : ∀ delta, m.pages + delta ≤ m.maximum.getD 65536 →
    ∃ grown, (MemoryStep.grow delta).run m = .ok (.grewFrom (some m.pages), grown) ∧
      m.Grown delta grown
  full : ∀ delta, m.maximum.getD 65536 < m.pages + delta →
    (MemoryStep.grow delta).run m = .ok (.grewFrom none, m)

namespace Recounts

variable {h : History}

theorem readWord (hr : m.Recounts h) (hc : m.Contains offset 4) :
    ∃ n, m.readWord offset = .ok n ∧ n.toNat = h.word offset.toNat := by
  rw [Contains] at hc
  exact ⟨_, readWord_of_view (hr.view _ (by omega)) (hr.view _ (by omega)) (hr.view _ (by omega))
    (hr.view _ (by omega)), Bytes.toNat_word ..⟩

/-- A step that fails on a memory leaves no trace in its history. -/
theorem next_of_error {f : Fault} (hr : m.Recounts h) (hf : step.run m = .error f) :
    h.next step = h := by
  unfold History.next
  cases hd : step.demand with
  | query => rfl
  | read offset length => rfl
  | growth delta =>
    cases step <;> cases hd
    rw [MemoryStep.run] at hf
    split at hf <;> cases hf
  | write offset length start data =>
    have hc : ¬m.Contains offset length := fun hc => by
      rw [MemoryStep.run_write hd, if_pos hc] at hf
      cases hf
    exact hr.write_of_not_contains hc

theorem behaves (hr : m.Recounts h) : m.Behaves h where
  pages := hr.pages
  maximum := hr.maximum
  size := m.size_eq_mul
  bounded := ⟨m.pages_le, m.maximum_le⟩
  access _ _ _ hs := MemoryStep.run_ok_iff hs m
  readByte offset hc := by
    rw [MemoryStep.run, readByte_of_view (hr.view offset.toNat hc)]
    rfl
  readWord offset hc := by
    obtain ⟨n, hn, hw⟩ := hr.readWord hc
    exact ⟨n, by rw [MemoryStep.run, hn]; rfl, hw⟩
  slice offset length hc := by
    rw [MemoryStep.run, slice_of_view hc hr.view]
    rfl
  recorded step offset length start data hd hok := by
    have hrange : step.range? = some (offset, length) := by rw [MemoryStep.range?, hd]
    have hc : m.Contains offset length := (MemoryStep.run_ok_iff hrange m).mp hok
    rw [History.next, hd]
    exact hr.write_of_contains hc
  failed step f hf := ⟨Memory.next_of_error hf, hr.next_of_error hf⟩
  grown delta hroom := by
    obtain ⟨grown, hg, hgrown⟩ := grow?_of_room hroom
    exact ⟨grown, by rw [MemoryStep.run, hg], hgrown⟩
  full delta hfull := by
    rw [MemoryStep.run, grow?_of_full hfull]

end Recounts

theorem create_zeros {pages : Nat} {maximum : Option Nat} (h : create pages maximum = .ok m) :
    m.pages = pages ∧ m.maximum = maximum ∧ m.bytes = .replicate (pageSize * pages) 0 := by
  unfold create at h
  split at h
  · cases h
  · split at h
    · cases h
      exact ⟨rfl, rfl, bytes_zeros ..⟩
    · split at h
      · cases h
      · split at h
        · cases h
        · cases h
          exact ⟨rfl, rfl, bytes_zeros ..⟩

theorem recounts_create {pages : Nat} {maximum : Option Nat}
    (h : create pages maximum = .ok m) : m.Recounts (.ofPages pages maximum) := by
  obtain ⟨hp, hm, hb⟩ := create_zeros h
  refine ⟨hp, hm, fun w hw => absurd hw List.not_mem_nil, fun i hi => ?_⟩
  rw [view, Array.getElem?_eq_getElem (m.size_bytes.symm ▸ hi)]
  simp only [hb, Array.getElem_replicate]
  rfl

theorem create_ok_iff {pages : Nat} {maximum : Option Nat} :
    (∃ m, create pages maximum = .ok m) ↔
      pages ≤ 65536 ∧ ∀ limit ∈ maximum, pages ≤ limit ∧ limit ≤ 65536 := by
  constructor
  · rintro ⟨m, hm⟩
    obtain ⟨rfl, rfl, -⟩ := create_zeros hm
    have hp := m.pages_le
    have hl := m.maximum_le
    refine ⟨Nat.le_trans hp hl, fun limit hlimit => ?_⟩
    rw [Option.mem_def.mp hlimit] at hp hl
    exact ⟨hp, hl⟩
  · rintro ⟨hp, hm⟩
    unfold create
    rw [dif_neg (by rw [maxPages]; omega)]
    cases maximum with
    | none => exact ⟨_, rfl⟩
    | some limit =>
      obtain ⟨hl, hmax⟩ := hm limit rfl
      exact ⟨_, (dif_neg (by omega)).trans (dif_neg (by rw [maxPages]; omega))⟩

/-- A memory that is created and then used behaves as its history says, whatever the steps. -/
theorem behaves_as_history (pages : Nat) (maximum : Option Nat) :
    ((∃ m, create pages maximum = .ok m) ↔
      pages ≤ 65536 ∧ ∀ limit ∈ maximum, pages ≤ limit ∧ limit ≤ 65536) ∧
    ∀ m, create pages maximum = .ok m → ∀ steps,
      (m.after steps).Behaves ((History.ofPages pages maximum).after steps) :=
  ⟨create_ok_iff, fun _ hm steps => ((recounts_create hm).after steps).behaves⟩

/-- Writes of all widths over one another, some of them across the end of the memory. -/
def crossing : List MemoryStep :=
  [.writeWord 65532 67305985, .writeWord 65534 1, .grow 1, .writeWord 65534 4278255360,
    .fill 65535 2 9, .grow 2, .store 65530 8 5 [7, 8] (by decide), .write 131071 [1, 2],
    .slice 65530 8]

theorem crossing_behaves :
    ∃ m, create 1 (some 3) = .ok m ∧ (m.after crossing).Behaves
      ⟨2, some 3, [(65535, [7, 8]), (65535, [9, 9]), (65534, [0, 255, 0, 255]),
        (65532, [1, 2, 3, 4])]⟩ := by
  have hh : (History.ofPages 1 (some 3)).after crossing = ⟨2, some 3, [(65535, [7, 8]),
      (65535, [9, 9]), (65534, [0, 255, 0, 255]), (65532, [1, 2, 3, 4])]⟩ := by decide
  obtain ⟨hcreate, hruns⟩ := behaves_as_history 1 (some 3)
  obtain ⟨m, hm⟩ := hcreate.mpr (by simp)
  exact ⟨m, hm, hh ▸ hruns m hm crossing⟩

end Memory

end GuestGate
