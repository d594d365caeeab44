import GuestGate.Memory.Strings

/-!
# Steps on a memory

What an embedder can do with one memory, as data. A step either fails and leaves the memory as it
was, or gives an answer and the memory after it.
-/

namespace GuestGate

/-- A memory to create, with what is written to it at the start. -/
structure MemoryPlan where
  pages : Nat
  maximum : Option Nat
  contents : List (UInt32 × List UInt8)
deriving DecidableEq, Repr

def MemoryPlan.build (p : MemoryPlan) : Except Fault Memory := do
  p.contents.foldlM (fun m (offset, data) => m.write offset data) (← Memory.create p.pages p.maximum)

inductive MemoryStep where
  | info
  | grow (delta : Nat)
  | readByte (offset : UInt32)
  | readWord (offset : UInt32)
  | writeByte (offset : UInt32) (value : UInt8)
  | writeWord (offset : UInt32) (value : UInt32)
  | slice (offset : UInt32) (length : Nat)
  | write (offset : UInt32) (data : List UInt8)
  | fill (offset : UInt32) (length : Nat) (value : UInt8)
  /-- Takes a range and stores bytes at a place inside it. -/
  | store (offset : UInt32) (length place : Nat) (data : List UInt8)
    (inside : place + data.length ≤ length)
  | string (offset : UInt32)
  | strings (offset : UInt32)
deriving DecidableEq, Repr

inductive MemoryAnswer where
  | done
  | info (pages size : Nat) (maximum : Option Nat)
  /-- The number of pages before growing, if there was room to grow. -/
  | grewFrom (pages : Option Nat)
  | byte (b : UInt8)
  | word (n : UInt32)
  | bytes (bs : List UInt8)
  | strings (ss : List (List UInt8))
deriving DecidableEq, Repr

namespace MemoryStep

def run (m : Memory) : MemoryStep → Except Fault (MemoryAnswer × Memory)
  | .info => .ok (.info m.pages m.size m.maximum, m)
  | .grow delta =>
    match m.grow? delta with
    | some grown => .ok (.grewFrom (some m.pages), grown)
    | none => .ok (.grewFrom none, m)
  | .readByte offset => (m.readByte offset).map fun b => (.byte b, m)
  | .readWord offset => (m.readWord offset).map fun n => (.word n, m)
  | .writeByte offset value => (m.writeByte offset value).map fun m => (.done, m)
  | .writeWord offset value => (m.writeWord offset value).map fun m => (.done, m)
  | .slice offset length => (m.slice offset length).map fun bs => (.bytes bs, m)
  | .write offset data => (m.write offset data).map fun m => (.done, m)
  | .fill offset length value => (m.fill offset length value).map fun m => (.done, m)
  | .store offset length place data _ =>
    (m.store offset length place data).map fun m => (.done, m)
  | .string offset => (m.string offset).map fun s => (.bytes s, m)
  | .strings offset => (m.strings offset).map fun ss => (.strings ss, m)

def changes : MemoryStep → Bool
  | .grow _ | .writeByte .. | .writeWord .. | .write .. | .fill .. | .store .. => true
  | _ => false

theorem eq_of_run {m m' : Memory} {step : MemoryStep} {a : MemoryAnswer}
    (h : step.run m = .ok (a, m')) (hc : step.changes = false) : m' = m := by
  cases step <;> simp only [changes, reduceCtorEq] at hc <;> simp only [run] at h
  case info => cases h; rfl
  case readByte offset => cases hr : m.readByte offset <;> rw [hr] at h <;> cases h; rfl
  case readWord offset => cases hr : m.readWord offset <;> rw [hr] at h <;> cases h; rfl
  case slice offset length => cases hr : m.slice offset length <;> rw [hr] at h <;> cases h; rfl
  case string offset => cases hr : m.string offset <;> rw [hr] at h <;> cases h; rfl
  case strings offset => cases hr : m.strings offset <;> rw [hr] at h <;> cases h; rfl

end MemoryStep

end GuestGate
