import GuestGate.Proofs.Decoding

/-!
# Readings of two memories

What two memories of one size have to share for a read to succeed on both or on neither, and for
what is read to be the same or as much.
-/

namespace GuestGate

variable {α β γ δ : Type}

/-- Two results that both fail, or succeed with values that stand in a relation. -/
inductive Paired (R : α → β → Prop) : Except Fault α → Except Fault β → Prop where
  | error (f g : Fault) : Paired R (.error f) (.error g)
  | ok {a : α} {b : β} (h : R a b) : Paired R (.ok a) (.ok b)

namespace Paired

theorem bind {R : α → β → Prop} {S : γ → δ → Prop} {e : Except Fault α} {e' : Except Fault β}
    {k : α → Except Fault γ} {k' : β → Except Fault δ} (h : Paired R e e')
    (hk : ∀ a b, R a b → Paired S (k a) (k' b)) : Paired S (e >>= k) (e' >>= k') := by
  cases h with
  | error f g => exact error f g
  | ok hr => exact hk _ _ hr

/-- Two chains of checks that begin with checks for the same value. -/
theorem bind_same {S : γ → δ → Prop} {e e' : Except Fault α} {k : α → Except Fault γ}
    {k' : α → Except Fault δ} (h : Paired Eq e e') (hk : ∀ a, Paired S (k a) (k' a)) :
    Paired S (e >>= k) (e' >>= k') := by
  refine h.bind ?_
  rintro a _ rfl
  exact hk a

theorem refl (e : Except Fault α) : Paired Eq e e := by
  cases e with
  | error f => exact error f f
  | ok a => exact ok rfl

theorem mono {R S : α → β → Prop} {e : Except Fault α} {e' : Except Fault β} (h : Paired R e e')
    (hRS : ∀ a b, R a b → S a b) : Paired S e e' := by
  cases h with
  | error f g => exact error f g
  | ok hr => exact ok (hRS _ _ hr)

theorem of_iff {e e' : Except Fault α} (h : ∀ a, e = .ok a ↔ e' = .ok a) : Paired Eq e e' := by
  cases e with
  | ok a =>
    rw [(h a).mp rfl]
    exact ok rfl
  | error f =>
    cases e' with
    | error g => exact error f g
    | ok b => cases (h b).mpr rfl

theorem of_error {R : α → β → Prop} {f : Fault} {e : Except Fault β}
    (h : Paired R (.error f) e) : ∃ g, e = .error g := by
  cases h with
  | error f g => exact ⟨g, rfl⟩

theorem of_ok {R : α → β → Prop} {a : α} {e : Except Fault β} (h : Paired R (.ok a) e) :
    ∃ b, e = .ok b ∧ R a b := by
  cases h with
  | ok hr => exact ⟨_, rfl, hr⟩

end Paired

namespace Memory

def InRange (offset : UInt32) (length i : Nat) : Prop :=
  offset.toNat ≤ i ∧ i < offset.toNat + length

/-- The places of a string, which without an end goes on to the end of memory. -/
def InString (m : Memory) (offset : UInt32) (i : Nat) : Prop :=
  offset.toNat ≤ i ∧ ∀ s, m.HoldsString offset.toNat s → i < offset.toNat + (terminated s).length

/-- The places of a vector, which without an end goes on to the end of memory. -/
def InVector (m : Memory) (offset : UInt32) (i : Nat) : Prop :=
  offset.toNat ≤ i ∧ ∀ ss, m.HoldsStrings offset.toNat ss → i < offset.toNat + (listed ss).length

/-- The same bytes at some places. -/
def SameAt (m n : Memory) (places : Nat → Prop) : Prop := ∀ i, places i → m.view i = n.view i

/-- Vectors with the same number of entries, or no vector in either memory. -/
def SameCount (m n : Memory) (offset : UInt32) : Prop :=
  ∀ count, (∃ ss, m.HoldsStrings offset.toNat ss ∧ ss.length = count) ↔
    ∃ ss, n.HoldsStrings offset.toNat ss ∧ ss.length = count

variable {m n : Memory} {offset : UInt32} {length : Nat}

/-- Things that lie in memory from a place on as certain bytes, no two at once. -/
structure Located (P : Memory → α → Prop) (start : Nat) (encode : α → List UInt8) : Prop where
  congr : ∀ {m n x}, P m x →
    (∀ i, start ≤ i → i < start + (encode x).length → n.view i = m.view i) → P n x
  unique : ∀ {m x y}, P m x → P m y → x = y

theorem located_string (offset : UInt32) :
    Located (fun m s => m.HoldsString offset.toNat s) offset.toNat terminated where
  congr h hv := ⟨h.clean, h.bytes.congr hv⟩
  unique h h' := Except.ok.inj ((string_eq_ok_iff.mpr h).symm.trans (string_eq_ok_iff.mpr h'))

theorem located_strings (offset : UInt32) :
    Located (fun m ss => m.HoldsStrings offset.toNat ss) offset.toNat listed where
  congr h hv := ⟨h.clean, h.bytes.congr hv⟩
  unique h h' := Except.ok.inj ((strings_eq_ok_iff.mpr h).symm.trans (strings_eq_ok_iff.mpr h'))

/-- Memories have the same thing if they have the same bytes at its places or, where there is none,
from its start on. -/
theorem Located.found_iff {P : Memory → α → Prop} {start : Nat} {encode : α → List UInt8}
    (hP : Located P start encode)
    (h : m.SameAt n fun i => start ≤ i ∧ ∀ x, P m x → i < start + (encode x).length) (x : α) :
    P m x ↔ P n x := by
  have hforth {x : α} (hx : P m x) : P n x := by
    refine hP.congr hx fun i hl hu => (h i ⟨hl, fun y hy => ?_⟩).symm
    rw [hP.unique hy hx]
    exact hu
  refine ⟨hforth, fun hn => ?_⟩
  by_cases hsome : ∃ y, P m y
  · obtain ⟨y, hy⟩ := hsome
    rwa [hP.unique hn (hforth hy)]
  · exact hP.congr hn fun i hl _ => h i ⟨hl, fun y hy => absurd ⟨y, hy⟩ hsome⟩

theorem string_paired (h : m.SameAt n (m.InString offset)) :
    Paired Eq (m.string offset) (n.string offset) := by
  apply Paired.of_iff
  intro s
  rw [string_eq_ok_iff, string_eq_ok_iff]
  exact (located_string offset).found_iff h s

theorem strings_paired (h : m.SameAt n (m.InVector offset)) :
    Paired Eq (m.strings offset) (n.strings offset) := by
  apply Paired.of_iff
  intro ss
  rw [strings_eq_ok_iff, strings_eq_ok_iff]
  exact (located_strings offset).found_iff h ss

theorem count_paired (h : m.SameCount n offset) :
    Paired (fun ss ts => ss.length = ts.length) (m.strings offset) (n.strings offset) := by
  have hforth {ss : List (List UInt8)} (hss : m.strings offset = .ok ss) :
      ∃ ts, n.strings offset = .ok ts ∧ ts.length = ss.length := by
    obtain ⟨ts, hts, hlength⟩ := (h ss.length).mp ⟨ss, strings_eq_ok_iff.mp hss, rfl⟩
    exact ⟨ts, strings_eq_ok_iff.mpr hts, hlength⟩
  have hback {ts : List (List UInt8)} (hts : n.strings offset = .ok ts) :
      ∃ ss, m.strings offset = .ok ss := by
    obtain ⟨ss, hss, -⟩ := (h ts.length).mpr ⟨ts, strings_eq_ok_iff.mp hts, rfl⟩
    exact ⟨ss, strings_eq_ok_iff.mpr hss⟩
  cases hm : m.strings offset with
  | ok ss =>
    obtain ⟨ts, hts, hlength⟩ := hforth hm
    rw [hts]
    exact .ok hlength.symm
  | error f =>
    cases hn : n.strings offset with
    | error g => exact .error f g
    | ok ts =>
      obtain ⟨ss, hss⟩ := hback hn
      rw [hm] at hss
      cases hss

theorem SameCount.of_holds {ss ts : List (List UInt8)} (hm : m.HoldsStrings offset.toNat ss)
    (hn : n.HoldsStrings offset.toNat ts) (count : ss.length = ts.length) :
    m.SameCount n offset := by
  intro k
  constructor
  · rintro ⟨ss', hss, rfl⟩
    rw [(located_strings offset).unique hss hm]
    exact ⟨ts, hn, count.symm⟩
  · rintro ⟨ts', hts, rfl⟩
    rw [(located_strings offset).unique hts hn]
    exact ⟨ss, hm, count⟩

theorem contains_congr (hs : m.size = n.size) :
    m.Contains offset length ↔ n.Contains offset length := by
  rw [Contains, Contains, hs]

theorem check_paired (hs : m.size = n.size) (offset : UInt32) (length : Nat) :
    Paired Eq (m.check offset length) (n.check offset length) := by
  apply Paired.of_iff
  intro _
  rw [check_eq_ok_iff_contains, check_eq_ok_iff_contains, contains_congr hs]

theorem slice_eq_ok_iff_holds {bs : List UInt8} :
    m.slice offset length = .ok bs ↔
      m.Contains offset length ∧ bs.length = length ∧ m.Holds offset.toNat bs := by
  constructor
  · intro h
    obtain ⟨hc, hb⟩ := slice_eq_ok_iff.mp h
    have hl := length_slice h
    subst hl
    exact ⟨hc, rfl, toList_extract_eq_iff.mp hb⟩
  · rintro ⟨hc, rfl, hb⟩
    exact slice_eq_ok_iff.mpr ⟨hc, toList_extract_eq_iff.mpr hb⟩

theorem slice_paired (hs : m.size = n.size)
    (h : m.SameAt n (InRange offset length)) :
    Paired Eq (m.slice offset length) (n.slice offset length) := by
  apply Paired.of_iff
  intro bs
  rw [slice_eq_ok_iff_holds, slice_eq_ok_iff_holds, contains_congr hs]
  refine and_congr_right fun _ => and_congr_right fun hl => ?_
  subst hl
  constructor
  · intro hb
    exact hb.congr fun i hl hu => (h i ⟨hl, hu⟩).symm
  · intro hb
    exact hb.congr fun i hl hu => h i ⟨hl, hu⟩

/-- Whether there is a slice depends on the size of memory alone. -/
theorem slice_length_paired (hs : m.size = n.size) (offset : UInt32) (length : Nat) :
    Paired (fun xs ys => xs.length = ys.length) (m.slice offset length)
      (n.slice offset length) := by
  by_cases hc : m.Contains offset length
  · have hm := slice_eq_ok_iff.mpr ⟨hc, rfl⟩
    have hn := slice_eq_ok_iff.mpr ⟨(contains_congr hs).mp hc, rfl⟩
    have hlength := (length_slice hm).trans (length_slice hn).symm
    rw [hm, hn]
    exact .ok hlength
  · rw [slice_eq_error_iff.mpr ⟨hc, rfl⟩,
      slice_eq_error_iff.mpr ⟨mt (contains_congr hs).mpr hc, rfl⟩]
    exact .error _ _

theorem readWord_paired (hs : m.size = n.size)
    (h : m.SameAt n (InRange offset 4)) :
    Paired Eq (m.readWord offset) (n.readWord offset) := by
  by_cases hc : m.Contains offset 4
  · have hbyte (k : Nat) (hk : k < 4) :
        ∃ b, m.view (offset.toNat + k) = some b ∧ n.view (offset.toNat + k) = some b := by
      have hlt : offset.toNat + k < m.size := by
        rw [Contains] at hc
        omega
      have hm := view_of_lt hlt
      exact ⟨_, hm, by rw [← h (offset.toNat + k) ⟨by omega, by omega⟩, hm]⟩
    obtain ⟨a, hma, hna⟩ := hbyte 0 (by omega)
    obtain ⟨b, hmb, hnb⟩ := hbyte 1 (by omega)
    obtain ⟨c, hmc, hnc⟩ := hbyte 2 (by omega)
    obtain ⟨d, hmd, hnd⟩ := hbyte 3 (by omega)
    rw [readWord_of_view hma hmb hmc hmd, readWord_of_view hna hnb hnc hnd]
    exact .ok rfl
  · rw [readWord_eq_error_iff.mpr ⟨hc, rfl⟩,
      readWord_eq_error_iff.mpr ⟨mt (contains_congr hs).mpr hc, rfl⟩]
    exact .error _ _

end Memory

end GuestGate
