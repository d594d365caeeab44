import GuestGate.Memory.Strings
import GuestGate.Proofs.MemoryView

/-!
# Strings as they lie in memory

A string in memory is its bytes and a NUL, and a vector is its strings one after the other and one
more NUL. Reading gives back what lies there and nothing else, wherever it lies and whatever comes
after it, and fails if no such thing lies there.
-/

namespace GuestGate

/-- A string with the NUL that ends it. -/
def terminated (s : List UInt8) : List UInt8 := s ++ [0]

/-- The strings of a vector one after the other, and the NUL that ends the vector. -/
def listed (ss : List (List UInt8)) : List UInt8 := ss.flatMap terminated ++ [0]

theorem listed_cons (s : List UInt8) (rest : List (List UInt8)) :
    listed (s :: rest) = terminated s ++ listed rest := by
  simp [listed]

theorem length_terminated (s : List UInt8) : (terminated s).length = s.length + 1 := by
  simp [terminated]

namespace Memory

/-- From some place on the bytes of a memory begin with others. -/
def Holds (m : Memory) (start : Nat) (data : List UInt8) : Prop :=
  data <+: m.bytes.toList.drop start

structure HoldsString (m : Memory) (start : Nat) (s : List UInt8) : Prop where
  clean : 0 ∉ s
  bytes : m.Holds start (terminated s)

structure HoldsStrings (m : Memory) (start : Nat) (ss : List (List UInt8)) : Prop where
  clean : ∀ s ∈ ss, s ≠ [] ∧ 0 ∉ s
  bytes : m.Holds start (listed ss)

variable {m : Memory} {start : Nat}

theorem holds_iff_view {data : List UInt8} :
    m.Holds start data ↔ ∀ i (h : i < data.length), m.view (start + i) = some data[i] := by
  simp only [Holds, List.prefix_iff_getElem?, List.getElem?_drop, Array.getElem?_toList, view]

theorem holds_append {xs ys : List UInt8} :
    m.Holds start (xs ++ ys) ↔ m.Holds start xs ∧ m.Holds (start + xs.length) ys := by
  unfold Holds
  rw [← List.drop_drop]
  constructor
  · rintro ⟨rest, hr⟩
    rw [← hr, List.append_assoc]
    exact ⟨List.prefix_append .., by rw [List.drop_left]; exact List.prefix_append ..⟩
  · rintro ⟨⟨rest, hr⟩, hy⟩
    rw [← hr, List.drop_left] at hy
    rw [← hr]
    exact (List.prefix_append_right_inj xs).mpr hy

theorem Holds.length_le {data : List UInt8} (h : m.Holds start data) (hne : data ≠ []) :
    start + data.length ≤ m.size := by
  have hl := List.IsPrefix.length_le h
  have hpos := List.length_pos_iff.mpr hne
  simp only [List.length_drop, Array.length_toList] at hl
  rw [← size_bytes]
  omega

/-- What a memory holds is held by every memory that has the same bytes there. -/
theorem Holds.congr {n : Memory} {data : List UInt8} (h : m.Holds start data)
    (hv : ∀ i, start ≤ i → i < start + data.length → n.view i = m.view i) :
    n.Holds start data := by
  rw [holds_iff_view] at h ⊢
  intro i hi
  rw [hv (start + i) (by omega) (by omega)]
  exact h i hi

theorem holds_put {data : List UInt8} (h : start + data.length ≤ m.size) :
    (m.put start data).Holds start data := by
  rw [holds_iff_view]
  intro i hi
  rw [view_put h, overlay_add hi, List.getElem?_eq_getElem hi]

/-- Two runs of bytes that are the same wherever they overlap. -/
def Agree (start : Nat) (xs : List UInt8) (other : Nat) (ys : List UInt8) : Prop :=
  ∀ i (_ : i < xs.length) j (_ : j < ys.length), start + i = other + j → xs[i] = ys[j]

instance (start : Nat) (xs : List UInt8) (other : Nat) (ys : List UInt8) :
    Decidable (Agree start xs other ys) :=
  inferInstanceAs (Decidable (∀ i (_ : i < xs.length) j (_ : j < ys.length), _ → _))

/-- What a memory holds is still there after a write that agrees with it. -/
theorem Holds.put {xs ys : List UInt8} {other : Nat} (h : m.Holds start xs)
    (hin : other + ys.length ≤ m.size) (agree : Agree start xs other ys) :
    (m.put other ys).Holds start xs := by
  rw [holds_iff_view] at h ⊢
  intro i hi
  rw [view_put hin]
  by_cases hover : other ≤ start + i ∧ start + i < other + ys.length
  · have hj : start + i - other < ys.length := by omega
    rw [overlay, if_pos hover, List.getElem?_eq_getElem hj,
      agree i hi (start + i - other) hj (by omega)]
  · rw [overlay, if_neg hover]
    exact h i hi

/-- The scan finds the first NUL. -/
theorem scanNul_eq_some_iff {n i e : Nat} {contents : Vector Page n} :
    scanNul contents i = some e ↔ i ≤ e ∧ (Page.row contents)[e]? = some 0 ∧
      ∀ k, i ≤ k → k < e → (Page.row contents)[k]? ≠ some 0 := by
  fun_induction scanNul contents i with
  | case1 i hi hz =>
    have hnul : (Page.row contents)[i]? = some 0 := by rw [Page.getElem?_row _ hi, hz]
    constructor
    · rintro ⟨⟩
      exact ⟨Nat.le_refl _, hnul, fun k hk hlt => absurd hk (by omega)⟩
    · rintro ⟨hle, -, hfirst⟩
      rcases Nat.lt_or_eq_of_le hle with hlt | rfl
      · exact absurd hnul (hfirst i (Nat.le_refl _) hlt)
      · rfl
  | case2 i hi hz ih =>
    have hno : (Page.row contents)[i]? ≠ some 0 := by
      rw [Page.getElem?_row _ hi]
      simpa using hz
    rw [ih]
    constructor
    · rintro ⟨hle, he, hfirst⟩
      refine ⟨by omega, he, fun k hk hlt => ?_⟩
      rcases Nat.lt_or_eq_of_le hk with h | rfl
      · exact hfirst k h hlt
      · exact hno
    · rintro ⟨hle, he, hfirst⟩
      have hne : i ≠ e := by
        rintro rfl
        exact hno he
      exact ⟨by omega, he, fun k hk hlt => hfirst k (by omega) hlt⟩
  | case3 i hi =>
    constructor
    · intro h
      cases h
    · rintro ⟨hle, he, -⟩
      obtain ⟨hlt, -⟩ := Array.getElem?_eq_some_iff.mp he
      rw [Page.size_row] at hlt
      omega

theorem holds_nul_iff {place : Nat} : m.Holds place [0] ↔ m.bytes[place]? = some 0 := by
  rw [holds_iff_view]
  constructor
  · intro h
    exact h 0 (by simp)
  · intro h i hi
    obtain rfl : i = 0 := by simpa using hi
    exact h

theorem toList_extract_eq_iff {s : List UInt8} :
    (m.bytes.extract start (start + s.length)).toList = s ↔ m.Holds start s := by
  rw [Array.toList_extract, List.extract_eq_take_drop, Nat.add_sub_cancel_left, eq_comm, Holds,
    List.prefix_iff_eq_take]

/-- A string in memory is what lies before the first NUL from its place on. -/
theorem holdsString_iff {s : List UInt8} :
    m.HoldsString start s ↔
      scanNul m.contents start = some (start + s.length) ∧
        (m.bytes.extract start (start + s.length)).toList = s := by
  rw [scanNul_eq_some_iff, ← bytes, toList_extract_eq_iff]
  constructor
  · rintro ⟨hclean, hbytes⟩
    obtain ⟨hs, hnul⟩ := holds_append.mp hbytes
    refine ⟨⟨Nat.le_add_right .., holds_nul_iff.mp hnul, fun k hk hlt hz => ?_⟩, hs⟩
    have hget := holds_iff_view.mp hs (k - start) (by omega)
    rw [view, Nat.add_sub_cancel' hk, hz] at hget
    exact hclean (Option.some.inj hget ▸ List.getElem_mem _)
  · rintro ⟨⟨-, hnul, hfirst⟩, hs⟩
    refine ⟨fun hmem => ?_, holds_append.mpr ⟨hs, holds_nul_iff.mpr hnul⟩⟩
    obtain ⟨i, hi, hz⟩ := List.mem_iff_getElem.mp hmem
    have hget := holds_iff_view.mp hs i hi
    exact hfirst (start + i) (by omega) (by omega) (hz ▸ hget)

variable {offset : UInt32}

/-- A string is read exactly where it lies. -/
theorem string_eq_ok_iff {s : List UInt8} :
    m.string offset = .ok s ↔ m.HoldsString offset.toNat s := by
  constructor
  · intro h
    unfold string at h
    split at h
    · split at h
      next e he =>
        cases h
        obtain ⟨hle, hlt⟩ := scanNul_eq_some he
        have hin : e < m.bytes.size := m.size_bytes ▸ hlt
        have hlen : (m.bytes.extract offset.toNat e).toList.length = e - offset.toNat := by
          simp
          omega
        rw [extract_eq, holdsString_iff, hlen, Nat.add_sub_cancel' hle]
        exact ⟨he, rfl⟩
      · cases h
    · cases h
  · intro h
    have hle := h.bytes.length_le (by simp [terminated])
    have hin : m.Contains offset 0 := by
      rw [Contains]
      omega
    obtain ⟨hscan, hextract⟩ := holdsString_iff.mp h
    rw [string, if_pos hin, hscan]
    exact congrArg Except.ok ((m.extract_eq ..).trans hextract)

theorem entry_eq_none_iff : m.entry offset = .ok none ↔ m.string offset = .ok [] := by
  unfold entry
  split <;> simp_all
  split <;> simp

/-- An entry is a string that is not empty, and the cursor after it is the place after its NUL. -/
theorem entry_eq_some_iff {s : List UInt8} {next : UInt32} :
    m.entry offset = .ok (some (s, next)) ↔
      m.string offset = .ok s ∧ s ≠ [] ∧ next.toNat = offset.toNat + (terminated s).length := by
  unfold entry
  rw [length_terminated]
  cases m.string offset with
  | error f => simp
  | ok read =>
    cases read with
    | nil =>
      simp only [Except.ok.injEq, reduceCtorEq, false_iff]
      rintro ⟨rfl, hne, -⟩
      exact hne rfl
    | cons b rest =>
      have hiff : next.toNat = offset.toNat + ((b :: rest).length + 1) ↔
          advance? offset (rest.length + 2) = some next := advance?_eq_some_iff.symm
      constructor
      · intro h
        dsimp only at h
        split at h
        next after ha =>
          cases h
          exact ⟨rfl, by simp, hiff.mpr ha⟩
        · cases h
      · rintro ⟨⟨⟩, -, hnext⟩
        dsimp only
        rw [hiff.mp hnext]

/-- A vector that is read lies where it was read from. -/
theorem holdsStrings_of_strings {ss : List (List UInt8)} (h : m.strings offset = .ok ss) :
    m.HoldsStrings offset.toNat ss := by
  fun_induction strings m offset generalizing ss with
  | case1 offset f he => cases h
  | case2 offset he =>
    cases h
    have hs := string_eq_ok_iff.mp (entry_eq_none_iff.mp he)
    exact ⟨by simp, hs.bytes⟩
  | case3 offset s next he hnext ih =>
    obtain ⟨hs, hne, hn⟩ := entry_eq_some_iff.mp he
    cases hr : m.strings next with
    | error f => simp [hr, Except.map] at h
    | ok rest =>
      simp only [hr, Except.map, Except.ok.injEq] at h
      subst h
      have hstring := string_eq_ok_iff.mp hs
      obtain ⟨hclean, hbytes⟩ := ih hr
      rw [hn] at hbytes
      refine ⟨List.forall_mem_cons.mpr ⟨⟨hne, hstring.clean⟩, hclean⟩, ?_⟩
      rw [listed_cons]
      exact holds_append.mpr ⟨hstring.bytes, hbytes⟩

/-- A vector that lies in memory is read from there, as its end fits into the address space. -/
theorem strings_of_holdsStrings {ss : List (List UInt8)} (h : m.HoldsStrings offset.toNat ss) :
    m.strings offset = .ok ss := by
  induction ss generalizing offset with
  | nil =>
    have hempty : m.HoldsString offset.toNat [] := ⟨by simp, h.bytes⟩
    exact strings_of_end (entry_eq_none_iff.mpr (string_eq_ok_iff.mpr hempty))
  | cons s rest ih =>
    obtain ⟨⟨hne, hs⟩, hrest⟩ := List.forall_mem_cons.mp h.clean
    have hbytes := h.bytes
    rw [listed_cons] at hbytes
    obtain ⟨hfirst, hothers⟩ := holds_append.mp hbytes
    -- What follows the entry has at least its last NUL to hold, so there is a cursor for it.
    have hle := hothers.length_le (by simp [listed])
    have hpos : 0 < (listed rest).length := by simp [listed]
    have hsize := m.size_le
    have hnext : (UInt32.ofNat (offset.toNat + (terminated s).length)).toNat =
        offset.toNat + (terminated s).length := UInt32.toNat_ofNat_of_lt' (by omega)
    have hentry := entry_eq_some_iff.mpr ⟨string_eq_ok_iff.mpr ⟨hs, hfirst⟩, hne, hnext⟩
    rw [strings_of_entry hentry, ih ⟨hrest, by rw [hnext]; exact hothers⟩]
    rfl

theorem strings_eq_ok_iff {ss : List (List UInt8)} :
    m.strings offset = .ok ss ↔ m.HoldsStrings offset.toNat ss :=
  ⟨holdsStrings_of_strings, strings_of_holdsStrings⟩

theorem missing_of_string_error {fault : Fault} (h : m.string offset = .error fault)
    (s : List UInt8) : ¬m.HoldsString offset.toNat s := by
  rw [← string_eq_ok_iff, h]
  nofun

theorem missing_of_strings_error {fault : Fault} (h : m.strings offset = .error fault)
    (ss : List (List UInt8)) : ¬m.HoldsStrings offset.toNat ss := by
  rw [← strings_eq_ok_iff, h]
  nofun

end Memory

end GuestGate
