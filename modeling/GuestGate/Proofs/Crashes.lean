import GuestGate.Memory.Step
import GuestGate.Proofs.Checks
import GuestGate.Proofs.Layout
import GuestGate.Proofs.Operands

/-!
# Operations that can crash

A refusal is for the caller to deal with; a crash ends the process. An index or a range past the
end of a list, a copy between lists of different lengths, a difference below zero, and a sum or a
product that 64 bits do not hold are crashes. The stack and the memories do their work by such
operations here, with the checks they make before, and no crash is ever reached: what they give is
what they give without.
-/

namespace GuestGate

/-- What ends the process. -/
inductive Crash where
  | index (i length : Nat)
  | range (start stop length : Nat)
  | copy (target source : Nat)
  | belowZero (a b : Nat)
  | tooLarge (n : Nat)
deriving DecidableEq, Repr

/-- A computation that gives a result, is refused, or crashes. -/
abbrev Risky := ExceptT Fault (Except Crash)

/-- Checks that crash nowhere. -/
instance : MonadLift (Except Fault) Risky where
  monadLift e := ExceptT.mk (.ok e)

namespace Risky

variable {α β : Type}

def crash (c : Crash) : Risky α := ExceptT.mk (.error c)

/-- A computation with its refusal as part of the result. -/
def attempt (x : Risky α) : Risky (Except Fault α) := ExceptT.mk (x.run.map .ok)

def item (l : List α) (i : Nat) : Risky α :=
  match l[i]? with
  | some a => pure a
  | none => crash (.index i l.length)

def between (l : List α) (start stop : Nat) : Risky (List α) :=
  if start ≤ stop ∧ stop ≤ l.length then pure (l.extract start stop)
  else crash (.range start stop l.length)

/-- Whether one list can be copied over another. -/
def copy (target source : List α) : Risky Unit :=
  if target.length = source.length then pure () else crash (.copy target.length source.length)

def sum (a b : Nat) : Risky Nat :=
  if a + b < UInt64.size then pure (a + b) else crash (.tooLarge (a + b))

def product (a b : Nat) : Risky { n : Nat // n = a * b } :=
  if a * b < UInt64.size then pure ⟨a * b, rfl⟩ else crash (.tooLarge (a * b))

def difference (a b : Nat) : Risky { d : Nat // b + d = a } :=
  if h : b ≤ a then pure ⟨a - b, Nat.add_sub_of_le h⟩ else crash (.belowZero a b)

/-- A computation that does not crash and ends as another does. -/
def Gives (x : Risky α) (e : Except Fault α) : Prop := x = ExceptT.mk (.ok e)

namespace Gives

variable {x : Risky α} {e : Except Fault α} {k : α → Risky β} {g : α → Except Fault β}

theorem pure (a : α) : Gives (pure a) (.ok a) := rfl

theorem refuse (f : Fault) : Gives (throw f : Risky α) (.error f) := rfl

theorem lift (e : Except Fault α) : Gives (liftM e) e := rfl

theorem bind (hx : Gives x e) (hk : ∀ a, e = .ok a → Gives (k a) (g a)) :
    Gives (x >>= k) (e >>= g) := by
  cases hx
  cases e with
  | error f => rfl
  | ok a => exact hk a rfl

/-- A step that only the computation that can crash takes. -/
theorem step {a : α} {d : Except Fault β} (hx : Gives x (.ok a)) (hk : Gives (k a) d) :
    Gives (x >>= k) d := by
  cases hx
  exact hk

/-- What is refused is refused, whatever would have come next. -/
theorem stop {f : Fault} (hx : Gives x (.error f)) : Gives (x >>= k) (.error f) := by
  cases hx
  rfl

theorem map (hx : Gives x e) (f : α → β) :
    Gives (x >>= fun a => Pure.pure (f a)) (e.map f) := by
  cases hx
  cases e <;> rfl

theorem attempt (hx : Gives x e) : Gives (Risky.attempt x) (.ok e) := by
  cases hx
  rfl

end Gives

theorem item_gives {l : List α} {i : Nat} {a : α} (h : l[i]? = some a) :
    Gives (item l i) (.ok a) := by
  rw [item, h]
  exact .pure a

theorem between_gives {l : List α} {start stop : Nat} (h : start ≤ stop)
    (hl : stop ≤ l.length) : Gives (between l start stop) (.ok (l.extract start stop)) := by
  rw [between, if_pos ⟨h, hl⟩]
  exact .pure _

theorem first_gives {l : List α} {n : Nat} (h : n ≤ l.length) :
    Gives (between l 0 n) (.ok (l.take n)) := by
  have hcut : l.extract 0 n = l.take n := by
    rw [List.extract_eq_take_drop, List.drop_zero, Nat.sub_zero]
  rw [← hcut]
  exact between_gives (Nat.zero_le n) h

theorem copy_gives {target source : List α} (h : target.length = source.length) :
    Gives (copy target source) (.ok ()) := by
  rw [copy, if_pos h]
  exact .pure ()

theorem sum_gives {a b : Nat} (h : a + b < UInt64.size) : Gives (sum a b) (.ok (a + b)) := by
  rw [sum, if_pos h]
  exact .pure _

theorem product_gives {a b : Nat} (h : a * b < UInt64.size) :
    Gives (product a b) (.ok ⟨a * b, rfl⟩) := by
  rw [product, if_pos h]
  exact .pure _

theorem difference_gives {a b : Nat} (h : b ≤ a) :
    Gives (difference a b) (.ok ⟨a - b, Nat.add_sub_of_le h⟩) := by
  rw [difference, dif_pos h]
  exact .pure _

/-! ### The stack -/

/-- Whether a value is an operand of the only kind that syscalls take. -/
def checkI32 (v : Value) : Except Fault Unit :=
  if v.type = .i32 then .ok () else .error (.typeMismatch .i32 v.type)

/-- The top `count` operands, taken as the end of the list of all operands. -/
def peekI32 (s : Stack) (count : Nat) : Risky (List Int32) :=
  if s.available < count then throw .stackUnderflow
  else do
    let values := s.operands.reverse
    let start ← difference values.length count
    let top ← between values start values.length
    (top.reverse.forM checkI32 : Except Fault Unit)
    return top.filterMap Value.asI32?

def discard (s : Stack) (count : Nat) : Risky Stack :=
  if s.available < count then throw .stackUnderflow
  else do
    let values := s.operands.reverse
    let kept ← difference values.length count
    return { s with operands := (values.take kept).reverse }

/-- Reading the integers one by one from the top is checking them from the top and then listing
them from the bottom. -/
theorem integers_eq_checked (count : Nat) (l : List Value) (h : count ≤ l.length) :
    (Stack.integers count l).map Vector.toList =
      ((l.take count).forM checkI32).map
        fun _ => (l.take count).reverse.filterMap Value.asI32? := by
  induction count generalizing l with
  | zero => rfl
  | succ count ih =>
    cases l with
    | nil => simp at h
    | cons v rest =>
      have hrest := ih rest (Nat.le_of_succ_le_succ h)
      cases v with
      | i32 n =>
        have hpush : ((Stack.integers count rest).map (·.push n)).map Vector.toList =
            ((Stack.integers count rest).map Vector.toList).map (· ++ [n]) := by
          cases Stack.integers count rest with
          | error f => rfl
          | ok v => exact congrArg Except.ok (Vector.toList_push ..)
        rw [Stack.integers, hpush, hrest, List.take_succ_cons, List.reverse_cons,
          List.filterMap_append]
        change _ = ((rest.take count).forM checkI32).map _
        cases (rest.take count).forM checkI32 <;> rfl
      | i64 n => rfl
      | f32 bits => rfl
      | f64 bits => rfl

theorem peekI32_gives (s : Stack) (count : Nat) :
    Gives (peekI32 s count) ((s.peekI32 count).map Vector.toList) := by
  unfold peekI32 Stack.peekI32
  by_cases h : s.available < count
  · rw [if_pos h, if_pos h]
    exact .refuse _
  · have hl : count ≤ s.operands.length := Nat.le_trans (Nat.not_lt.mp h) s.available_le
    have hlen : count ≤ s.operands.reverse.length := by rwa [List.length_reverse]
    rw [if_neg h, if_neg h, integers_eq_checked count s.operands hl]
    refine .step (difference_gives hlen) (.step (between_gives (Nat.sub_le ..) (Nat.le_refl _)) ?_)
    have htop : (s.operands.reverse.extract (s.operands.reverse.length - count)
        s.operands.reverse.length) = (s.operands.take count).reverse := by
      rw [List.extract_eq_take_drop, List.reverse_take, List.length_reverse,
        List.take_of_length_le (Nat.le_of_eq (by rw [List.length_drop, List.length_reverse]))]
    rw [htop, List.reverse_reverse]
    exact (Gives.lift _).map fun _ => (s.operands.take count).reverse.filterMap Value.asI32?

theorem discard_gives (s : Stack) (count : Nat) : Gives (discard s count) (s.discard count) := by
  unfold discard Stack.discard
  by_cases h : s.available < count
  · rw [if_pos h, if_pos h]
    exact .refuse _
  · have hl : count ≤ s.operands.length := Nat.le_trans (Nat.not_lt.mp h) s.available_le
    have hlen : count ≤ s.operands.reverse.length := by rwa [List.length_reverse]
    rw [if_neg h, if_neg h]
    refine .step (difference_gives hlen) ?_
    have hkept : (s.operands.reverse.take (s.operands.reverse.length - count)).reverse =
        s.operands.drop count := by
      rw [List.take_reverse, List.reverse_reverse, List.length_reverse, Nat.sub_sub_self hl]
    rw [← hkept]
    exact .pure _

/-! ### Memories -/

/-- Where a range starts, if it lies in a memory. -/
def start (m : Memory) (offset : UInt32) (length : Nat) : Risky Nat :=
  match Memory.rangeEnd? offset length with
  | none => throw (m.outOfBounds offset length)
  | some stop => if m.size < stop then throw (m.outOfBounds offset length) else pure offset.toNat

def slice (m : Memory) (offset : UInt32) (length : Nat) : Risky (List UInt8) := do
  let start ← start m offset length
  let stop ← sum start length
  between m.bytes.toList start stop

def readByte (m : Memory) (offset : UInt32) : Risky UInt8 := do
  item (← slice m offset 1) 0

def readWord (m : Memory) (offset : UInt32) : Risky UInt32 := do
  let bytes ← slice m offset 4
  return Bytes.word (← item bytes 0) (← item bytes 1) (← item bytes 2) (← item bytes 3)

/-- Copies bytes over a range of a memory from a place in the range on. -/
def store (m : Memory) (offset : UInt32) (length place : Nat) (data : List UInt8) :
    Risky Memory := do
  let range ← slice m offset length
  let target ← between range place (place + data.length)
  copy target data
  return m.put (offset.toNat + place) data

def write (m : Memory) (offset : UInt32) (data : List UInt8) : Risky Memory :=
  store m offset data.length 0 data

def writeByte (m : Memory) (offset : UInt32) (b : UInt8) : Risky Memory := do
  let range ← slice m offset 1
  let _ ← item range 0
  return m.put offset.toNat [b]

def writeWord (m : Memory) (offset : UInt32) (n : UInt32) : Risky Memory :=
  store m offset 4 0 (Bytes.ofWord n)

def fill (m : Memory) (offset : UInt32) (length : Nat) (b : UInt8) : Risky Memory :=
  store m offset length 0 (List.replicate length b)

/-- The string up to the first NUL of the rest of the memory. -/
def string (m : Memory) (offset : UInt32) : Risky (List UInt8) := do
  let tail ← slice m offset (m.size - offset.toNat)
  match tail.findIdx? (· == 0) with
  | some nul => between tail 0 nul
  | none =>
    let length ← sum tail.length 1
    throw (m.outOfBounds offset length)

def entry (m : Memory) (cursor : UInt32) : Risky (Option (List UInt8 × UInt32)) := do
  let s ← string m cursor
  if s.isEmpty then return none
  else
    let length ← sum s.length 1
    match Memory.advance? cursor length with
    | some next => return some (s, next)
    | none => throw (m.outOfBounds cursor length)

/-- A memory has at most `2 ^ 32` bytes, so its sizes and offsets add up in 64 bits. -/
theorem sum_gives_of_le_size {m : Memory} {a b : Nat} (h : a + b ≤ m.size + 1) :
    Gives (sum a b) (.ok (a + b)) := by
  have hsize := m.size_le
  rw [UInt32.size] at hsize
  refine sum_gives ?_
  rw [UInt64.size]
  omega

theorem start_gives (m : Memory) (offset : UInt32) (length : Nat) :
    Gives (start m offset length) ((m.check offset length).map fun _ => offset.toNat) := by
  have hc := @Memory.rangeEnd_le_iff m offset length
  unfold start Memory.check
  cases hr : Memory.rangeEnd? offset length with
  | none =>
    rw [hr] at hc
    rw [if_neg (mt hc.mpr (by simp))]
    exact .refuse _
  | some stop =>
    rw [hr] at hc
    by_cases h : m.size < stop
    · rw [if_neg (mt hc.mpr (by simp [h]))]
      simp only [if_pos h]
      exact .refuse _
    · rw [if_pos (hc.mp (by simpa using h))]
      simp only [if_neg h]
      exact .pure _

theorem slice_gives (m : Memory) (offset : UInt32) (length : Nat) :
    Gives (slice m offset length) (m.slice offset length) := by
  have hslice : m.slice offset length = (m.check offset length).map (fun _ => offset.toNat) >>=
      fun start => .ok (m.bytes.toList.extract start (start + length)) := by
    unfold Memory.slice Memory.check
    split
    · rw [Memory.extract_eq, Array.toList_extract]
      rfl
    · rfl
  rw [hslice]
  refine (start_gives m offset length).bind fun place h => ?_
  obtain ⟨_, hc, rfl⟩ := map_eq_ok_iff.mp h
  have hin : offset.toNat + length ≤ m.size := Memory.check_eq_ok_iff.mp hc
  have hlen : offset.toNat + length ≤ m.bytes.toList.length := by
    rwa [Array.length_toList, m.size_bytes]
  exact .step (sum_gives_of_le_size (Nat.le_succ_of_le hin))
    (between_gives (Nat.le_add_right ..) hlen)

theorem drop_row {n i : Nat} (contents : Vector Page n) (hi : i < pageSize * n) :
    (Page.row contents).toList.drop i =
      Page.byte contents i hi :: (Page.row contents).toList.drop (i + 1) := by
  have hlen : i < (Page.row contents).toList.length := by
    rwa [Array.length_toList, Page.size_row]
  rw [List.drop_eq_getElem_cons hlen, Array.getElem_toList, Page.getElem_row]

/-- The first NUL of what is left of a memory is the first from there on in all of it. -/
theorem findIdx?_drop_eq {n : Nat} (contents : Vector Page n) (i : Nat) :
    ((Page.row contents).toList.drop i).findIdx? (· == 0) =
      (Memory.scanNul contents i).map (· - i) := by
  fun_induction Memory.scanNul contents i with
  | case1 i hi hz =>
    rw [drop_row contents hi, List.findIdx?_cons, hz]
    simp
  | case2 i hi hz ih =>
    rw [drop_row contents hi, List.findIdx?_cons, ih, if_neg (by simpa using hz)]
    cases hn : Memory.scanNul contents (i + 1) with
    | none => rfl
    | some e =>
      have hle := (Memory.scanNul_eq_some hn).1
      simp only [Option.map_some, Option.some.injEq]
      omega
  | case3 i hi =>
    rw [List.drop_eq_nil_of_le (by rw [Array.length_toList, Page.size_row]; omega)]
    rfl

/-- What is left of a memory from an offset on. -/
theorem slice_rest {m : Memory} {offset : UInt32} (h : offset.toNat ≤ m.size) :
    m.slice offset (m.size - offset.toNat) = .ok (m.bytes.toList.drop offset.toNat) := by
  refine Memory.slice_eq_ok_iff.mpr ⟨Nat.le_of_eq (Nat.add_sub_of_le h), ?_⟩
  rw [Nat.add_sub_of_le h, Array.toList_extract, List.extract_eq_take_drop, ← m.size_bytes]
  exact List.take_of_length_le (Nat.le_of_eq List.length_drop)

theorem string_gives (m : Memory) (offset : UInt32) :
    Gives (string m offset) (m.string offset) := by
  unfold string Memory.string
  by_cases h : m.Contains offset 0
  · have hle : offset.toNat ≤ m.size := h
    have hslice := slice_gives m offset (m.size - offset.toNat)
    rw [slice_rest hle] at hslice
    have hlen : (m.bytes.toList.drop offset.toNat).length = m.size - offset.toNat := by
      rw [List.length_drop, Array.length_toList, m.size_bytes]
    rw [if_pos h]
    refine .step hslice ?_
    rw [Memory.bytes, findIdx?_drop_eq, ← Memory.bytes]
    cases hn : Memory.scanNul m.contents offset.toNat with
    | none =>
      have hsum : (m.bytes.toList.drop offset.toNat).length + 1 ≤ m.size + 1 := by
        rw [hlen]
        exact Nat.succ_le_succ (Nat.sub_le ..)
      rw [← hlen]
      exact .step (sum_gives_of_le_size hsum) (.refuse _)
    | some e =>
      obtain ⟨hl, hr⟩ := Memory.scanNul_eq_some hn
      have hin : e - offset.toNat ≤ (m.bytes.toList.drop offset.toNat).length := by
        rw [hlen, Memory.size]
        omega
      dsimp only [Option.map_some]
      rw [Memory.extract_eq, Array.toList_extract, List.extract_eq_take_drop]
      exact first_gives hin
  -- Past the end nothing is left, and taking nothing there is refused all the same.
  · have hslice := slice_gives m offset (m.size - offset.toNat)
    have hz : m.size - offset.toNat = 0 := by
      rw [Memory.Contains] at h
      omega
    rw [hz, Memory.slice, if_neg h] at hslice
    rw [if_neg h, hz]
    exact hslice.stop

theorem entry_gives (m : Memory) (cursor : UInt32) :
    Gives (entry m cursor) (m.entry cursor) := by
  have hentry : m.entry cursor = m.string cursor >>= fun s =>
      if s.isEmpty then .ok none
      else
        match Memory.advance? cursor (s.length + 1) with
        | some next => .ok (some (s, next))
        | none => .error (m.outOfBounds cursor (s.length + 1)) := by
    unfold Memory.entry
    split
    next hs => rw [hs]; rfl
    next hs => rw [hs]; rfl
    next hs => rw [hs]; rfl
  rw [hentry]
  refine (string_gives m cursor).bind fun s hs => ?_
  have hend := Memory.string_end hs
  have hsum : s.length + 1 ≤ m.size + 1 := by omega
  split
  · exact .pure none
  · refine .step (sum_gives_of_le_size hsum) ?_
    split
    · exact .pure _
    · exact .refuse _

def strings (m : Memory) (offset : UInt32) : Risky (List (List UInt8)) :=
  match h : (entry m offset).run with
  | .error c => crash c
  | .ok (.error f) => throw f
  | .ok (.ok none) => pure []
  | .ok (.ok (some (s, next))) =>
    have := Memory.entry_next (Except.ok.inj ((entry_gives m offset).symm.trans h))
    strings m next >>= fun rest => pure (s :: rest)
termination_by m.size - offset.toNat

theorem strings_gives (m : Memory) (offset : UInt32) :
    Gives (strings m offset) (m.strings offset) := by
  fun_induction Memory.strings m offset with
  | case1 offset f hf =>
    have he : (entry m offset).run = .ok (.error f) := hf ▸ entry_gives m offset
    unfold strings
    split
    next h => cases he.symm.trans h
    next h =>
      cases he.symm.trans h
      exact .refuse f
    next h => cases he.symm.trans h
    next h => cases he.symm.trans h
  | case2 offset hn =>
    have he : (entry m offset).run = .ok (.ok none) := hn ▸ entry_gives m offset
    unfold strings
    split
    next h => cases he.symm.trans h
    next h => cases he.symm.trans h
    next h => exact .pure []
    next h => cases he.symm.trans h
  | case3 offset s next hn he ih =>
    have he : (entry m offset).run = .ok (.ok (some (s, next))) := hn ▸ entry_gives m offset
    unfold strings
    split
    next h => cases he.symm.trans h
    next h => cases he.symm.trans h
    next h => cases he.symm.trans h
    next h =>
      cases he.symm.trans h
      exact ih.map (s :: ·)

/-- A memory of zeros, whose size is a product. -/
def zeros (pages : Nat) (maximum : Option Nat) (hp : pages ≤ maximum.getD maxPages)
    (hm : maximum.getD maxPages ≤ maxPages) : Risky Memory := do
  let _ ← product pages pageSize
  return .zeros pages maximum hp hm

def create (pages : Nat) (maximum : Option Nat) : Risky Memory :=
  if hp : maxPages < pages then throw (.memory (.initialTooLarge pages))
  else
    match maximum with
    | none => zeros pages none (Nat.le_of_not_lt hp : pages ≤ maxPages) (Nat.le_refl maxPages)
    | some limit =>
      if hl : limit < pages then throw (.memory (.initialAboveMaximum pages limit))
      else if hm : maxPages < limit then throw (.memory (.maximumTooLarge limit))
      else
        zeros pages (some limit) (Nat.le_of_not_lt hl : pages ≤ limit)
          (Nat.le_of_not_lt hm : limit ≤ maxPages)

/-- Makes room for as many bytes as are missing to the new size. -/
def grow (m : Memory) (delta : Nat) : Risky (Option Memory) :=
  if h : m.pages + delta ≤ m.maximum.getD maxPages then do
    let ⟨size, _⟩ ← product (m.pages + delta) pageSize
    let _ ← difference size m.size
    return some (m.extended delta h)
  else pure none

theorem product_pages_gives {pages : Nat} (h : pages ≤ maxPages) :
    Gives (product pages pageSize) (.ok ⟨pages * pageSize, rfl⟩) := by
  refine product_gives ?_
  rw [maxPages] at h
  rw [pageSize, UInt64.size]
  omega

theorem create_gives (pages : Nat) (maximum : Option Nat) :
    Gives (create pages maximum) (Memory.create pages maximum) := by
  unfold create Memory.create
  by_cases hp : maxPages < pages
  · rw [dif_pos hp, dif_pos hp]
    exact .refuse _
  · have hsize := product_pages_gives (Nat.not_lt.mp hp)
    rw [dif_neg hp, dif_neg hp]
    cases maximum with
    | none => exact .step hsize (.pure _)
    | some limit =>
      dsimp only
      by_cases hl : limit < pages
      · rw [dif_pos hl, dif_pos hl]
        exact .refuse _
      · rw [dif_neg hl, dif_neg hl]
        by_cases hm : maxPages < limit
        · rw [dif_pos hm, dif_pos hm]
          exact .refuse _
        · rw [dif_neg hm, dif_neg hm]
          exact .step hsize (.pure _)

theorem grow_gives (m : Memory) (delta : Nat) : Gives (grow m delta) (.ok (m.grow? delta)) := by
  unfold grow Memory.grow?
  by_cases h : m.pages + delta ≤ m.maximum.getD maxPages
  · rw [dif_pos h, dif_pos h]
    have hle : m.size ≤ (m.pages + delta) * pageSize := by
      rw [m.size_eq_mul]
      exact Nat.mul_le_mul_right _ (Nat.le_add_right ..)
    refine .step (product_pages_gives (Nat.le_trans h m.maximum_le)) ?_
    exact .step (difference_gives hle) (.pure _)
  · rw [dif_neg h, dif_neg h]
    exact .pure none

/-- What is done with a range is done with as many bytes as were asked for, or refused. -/
theorem slice_bind {m : Memory} {offset : UInt32} {length : Nat} {k : List UInt8 → Risky β}
    {d : Except Fault β}
    (hout : ¬m.Contains offset length → d = .error (m.outOfBounds offset length))
    (hin : ∀ bytes, m.Contains offset length → m.slice offset length = .ok bytes →
      Gives (k bytes) d) : Gives (slice m offset length >>= k) d := by
  have hslice := slice_gives m offset length
  by_cases h : m.Contains offset length
  · have hs := Memory.slice_eq_ok_iff.mpr ⟨h, rfl⟩
    rw [hs] at hslice
    exact .step hslice (hin _ h hs)
  · rw [Memory.slice, if_neg h] at hslice
    rw [hout h]
    exact hslice.stop

/-- Where a range is only checked, taking it is a check. -/
theorem check_bind {m : Memory} {offset : UInt32} {length : Nat} {x : Risky β}
    {d : Except Fault β} (h : Gives x d) :
    Gives (slice m offset length >>= fun _ => x) (m.check offset length >>= fun _ => d) := by
  refine slice_bind (fun hout => ?_) fun bytes hin hs => ?_
  · rw [Memory.check, if_neg hout]
    rfl
  · rw [Memory.check, if_pos hin]
    exact h

theorem item_slice_gives {m : Memory} {offset : UInt32} {length i : Nat} {bytes : List UInt8}
    (hs : m.slice offset length = .ok bytes) (hi : i < length)
    (h : offset.toNat + i < m.size) : Gives (item bytes i) (.ok (m.byte (offset.toNat + i) h)) :=
  item_gives ((Memory.getElem?_slice hs hi).trans (Memory.view_of_lt h))

theorem readByte_gives (m : Memory) (offset : UInt32) :
    Gives (readByte m offset) (m.readByte offset) := by
  refine slice_bind (fun h => dif_neg h) fun bytes h hs => ?_
  rw [Memory.readByte, dif_pos h]
  exact item_slice_gives hs Nat.zero_lt_one h

theorem readWord_gives (m : Memory) (offset : UInt32) :
    Gives (readWord m offset) (m.readWord offset) := by
  refine slice_bind (fun h => dif_neg h) fun bytes h hs => ?_
  have hsize : offset.toNat + 4 ≤ m.size := h
  rw [Memory.readWord, dif_pos h]
  refine .step (item_slice_gives hs (by decide) (by omega)) ?_
  refine .step (item_slice_gives hs (by decide) (by omega)) ?_
  refine .step (item_slice_gives hs (by decide) (by omega)) ?_
  refine .step (item_slice_gives hs (by decide) (by omega)) ?_
  exact .pure _

theorem store_gives {length place : Nat} {data : List UInt8}
    (inside : place + data.length ≤ length) (m : Memory) (offset : UInt32) :
    Gives (store m offset length place data) (m.store offset length place data) := by
  refine slice_bind (fun h => if_neg h) fun bytes h hs => ?_
  have hlen := Memory.length_slice hs
  have htarget : (bytes.extract place (place + data.length)).length = data.length := by
    rw [List.extract_eq_take_drop, List.length_take, List.length_drop]
    omega
  rw [Memory.store, if_pos h]
  refine .step (between_gives (Nat.le_add_right ..) (hlen.symm ▸ inside)) ?_
  exact .step (copy_gives htarget) (.pure _)

theorem write_gives (m : Memory) (offset : UInt32) (data : List UInt8) :
    Gives (write m offset data) (m.write offset data) :=
  store_gives (Nat.le_of_eq (Nat.zero_add _)) m offset

theorem writeWord_gives (m : Memory) (offset n : UInt32) :
    Gives (writeWord m offset n) (m.writeWord offset n) :=
  store_gives (Nat.le_refl 4) m offset

theorem fill_gives (m : Memory) (offset : UInt32) (length : Nat) (b : UInt8) :
    Gives (fill m offset length b) (m.fill offset length b) :=
  store_gives (Nat.le_of_eq (by rw [Nat.zero_add, List.length_replicate])) m offset

theorem writeByte_gives (m : Memory) (offset : UInt32) (b : UInt8) :
    Gives (writeByte m offset b) (m.writeByte offset b) := by
  refine slice_bind (fun h => if_neg h) fun bytes h hs => ?_
  have hwrite : m.writeByte offset b = .ok (m.put offset.toNat [b]) := if_pos h
  rw [hwrite]
  exact .step (item_slice_gives hs Nat.zero_lt_one h) (.pure _)

/-- A step on a memory. -/
def run (m : Memory) : MemoryStep → Risky (MemoryAnswer × Memory)
  | .info => pure (.info m.pages m.size m.maximum, m)
  | .grow delta => do
    match ← grow m delta with
    | some grown => return (.grewFrom (some m.pages), grown)
    | none => return (.grewFrom none, m)
  | .readByte offset => do return (.byte (← readByte m offset), m)
  | .readWord offset => do return (.word (← readWord m offset), m)
  | .writeByte offset value => do return (.done, ← writeByte m offset value)
  | .writeWord offset value => do return (.done, ← writeWord m offset value)
  | .slice offset length => do return (.bytes (← slice m offset length), m)
  | .write offset data => do return (.done, ← write m offset data)
  | .fill offset length value => do return (.done, ← fill m offset length value)
  | .store offset length place data _ => do return (.done, ← store m offset length place data)
  | .string offset => do return (.bytes (← string m offset), m)
  | .strings offset => do return (.strings (← strings m offset), m)

theorem run_gives (m : Memory) (step : MemoryStep) : Gives (run m step) (step.run m) := by
  cases step with
  | info => exact .pure _
  | grow delta =>
    refine .step (grow_gives m delta) ?_
    simp only [MemoryStep.run]
    cases m.grow? delta <;> exact .pure _
  | readByte offset => exact (readByte_gives m offset).map _
  | readWord offset => exact (readWord_gives m offset).map _
  | writeByte offset value => exact (writeByte_gives m offset value).map _
  | writeWord offset value => exact (writeWord_gives m offset value).map _
  | slice offset length => exact (slice_gives m offset length).map _
  | write offset data => exact (write_gives m offset data).map _
  | fill offset length value => exact (fill_gives m offset length value).map _
  | store offset length place data inside => exact (store_gives inside m offset).map _
  | string offset => exact (string_gives m offset).map _
  | strings offset => exact (strings_gives m offset).map _

end Risky

end GuestGate
