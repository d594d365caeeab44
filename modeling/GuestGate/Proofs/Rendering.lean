import GuestGate.Stack
import GuestGate.Proofs.FloatLiteral
import Mathlib

/-!
# Reading a snapshot back from its text

A snapshot is shown as its values with commas between them and, after a bracket, the number of
frames. No value is written with a comma or a bracket, so the text falls into those of the values,
and the text of a value tells its kind and its bits.
-/

namespace GuestGate

/-- The characters that stand between the parts of a text. -/
inductive Delimits : Char → Prop where
  | comma : Delimits ','
  | bracket : Delimits ']'
  | blank : Delimits ' '

namespace Delimits

variable {c : Char}

theorem hexValue?_eq_none (h : Delimits c) : Json.Quoted.hexValue? c = none := by
  cases h <;> rfl

theorem not_mem_natural (h : Delimits c) (n : Nat) : c ∉ Hex.natural n := by
  fun_induction Hex.natural n with
  | case1 n hn =>
    rw [List.mem_singleton]
    exact (FloatLiteral.digit_ne hn h.hexValue?_eq_none).symm
  | case2 n _ ih =>
    have hlast := FloatLiteral.digit_ne (Nat.mod_lt n (by decide : 16 > 0)) h.hexValue?_eq_none
    rw [List.mem_append, List.mem_singleton, not_or]
    exact ⟨ih, hlast.symm⟩

theorem not_mem_decimal (h : Delimits c) (n : Nat) : c ∉ n.repr.toList := by
  intro hmem
  rw [Nat.toList_repr] at hmem
  have hdigit := Nat.isDigit_of_mem_toDigits (by decide) (by decide) hmem
  cases h <;> cases hdigit

theorem not_mem_integer (h : Delimits c) (n : Int) : c ∉ n.repr.toList := by
  rw [Int.repr_eq_if]
  split
  · exact h.not_mem_decimal _
  · rw [String.toList_append, List.mem_append, not_or]
    exact ⟨by cases h <;> decide, h.not_mem_decimal _⟩

theorem not_mem_exponentText (h : Delimits c) (e : Int) : c ∉ FloatFormat.exponentText e := by
  unfold FloatFormat.exponentText
  rw [List.mem_cons, List.mem_cons, not_or, not_or]
  refine ⟨by cases h <;> decide, ?_, h.not_mem_decimal _⟩
  split <;> cases h <;> decide

variable {f : FloatFormat}

theorem not_mem_magnitude (h : Delimits c) (hf : f.Roomy) (bits : Nat) :
    c ∉ f.magnitude bits := by
  cases hs : f.isSpecial bits with
  | true =>
    unfold FloatFormat.magnitude
    rw [if_pos hs]
    split
    · cases h <;> decide
    · split
      · cases h <;> decide
      · rw [List.mem_append, not_or]
        exact ⟨by cases h <;> decide, h.not_mem_natural _⟩
  | false =>
    cases hz : f.isZero bits with
    | true =>
      unfold FloatFormat.magnitude
      rw [if_neg (Bool.not_eq_true _ ▸ hs), if_pos hz]
      cases h <;> decide
    | false =>
      have hdigits := hf.not_mem_mantissaText (hf.normalizes hz).fits h.hexValue?_eq_none
        (by cases h <;> decide)
      rw [FloatFormat.magnitude_of_finite hs hz, List.mem_cons, List.mem_cons, List.mem_append,
        not_or, not_or, not_or]
      exact ⟨by cases h <;> decide, by cases h <;> decide, hdigits, h.not_mem_exponentText _⟩

theorem not_mem_literal (h : Delimits c) (hf : f.Roomy) (bits : Nat) : c ∉ f.literal bits := by
  unfold FloatFormat.literal
  split
  · rw [List.mem_cons, not_or]
    exact ⟨by cases h <;> decide, h.not_mem_magnitude hf bits⟩
  · exact h.not_mem_magnitude hf bits

end Delimits

namespace Value

/-- What stands after the kind in the text of a value. -/
def payloadText : Value → List Char
  | .i32 n => n.toInt.repr.toList
  | .i64 n => n.toInt.repr.toList
  | .f32 bits => FloatFormat.single.literal bits.toNat
  | .f64 bits => FloatFormat.double.literal bits.toNat

theorem toList_text (v : Value) : v.text.toList = v.type.name.toList ++ ':' :: v.payloadText := by
  cases v <;> simp [text, type, ValueType.name, payloadText, toString]

theorem text_ne_empty (v : Value) : v.text.toList ≠ [] := by
  rw [toList_text]
  simp

theorem not_mem_text {c : Char} (h : Delimits c) (v : Value) : c ∉ v.text.toList := by
  have hkind (t : ValueType) : c ∉ t.name.toList ∧ c ≠ ':' := by
    cases t <;> cases h <;> decide
  have hpayload : c ∉ v.payloadText := by
    cases v with
    | i32 n => exact h.not_mem_integer _
    | i64 n => exact h.not_mem_integer _
    | f32 bits => exact h.not_mem_literal FloatFormat.single_roomy _
    | f64 bits => exact h.not_mem_literal FloatFormat.double_roomy _
  rw [toList_text, List.mem_append, List.mem_cons, not_or, not_or]
  exact ⟨(hkind v.type).1, (hkind v.type).2, hpayload⟩

theorem type_eq_of_name_eq {t u : ValueType} (h : t.name = u.name) : t = u := by
  cases t <;> cases u <;> simp_all [ValueType.name]

theorem name_length (t : ValueType) : t.name.toList.length = 3 := by cases t <;> rfl

theorem eq_of_payloadText {v w : Value} (ht : v.type = w.type)
    (hp : v.payloadText = w.payloadText) : v = w := by
  cases v <;> cases w <;> cases ht
  case i32.i32.refl m n =>
    exact congrArg i32 (Int32.toInt_inj.mp (Int.repr_inj.mp (String.toList_inj.mp hp)))
  case i64.i64.refl m n =>
    exact congrArg i64 (Int64.toInt_inj.mp (Int.repr_inj.mp (String.toList_inj.mp hp)))
  case f32.f32.refl a b =>
    exact congrArg f32 (UInt32.toNat_inj.mp
      (FloatFormat.single_roomy.literal_injective a.toNat_lt b.toNat_lt hp))
  case f64.f64.refl a b =>
    exact congrArg f64 (UInt64.toNat_inj.mp
      (FloatFormat.double_roomy.literal_injective a.toNat_lt b.toNat_lt hp))

/-- The text of a value tells its kind and its bits. -/
theorem text_injective {v w : Value} (h : v.text = w.text) : v = w := by
  have hl : v.type.name.toList ++ ':' :: v.payloadText =
      w.type.name.toList ++ ':' :: w.payloadText := by
    rw [← toList_text, ← toList_text, h]
  obtain ⟨hname, hrest⟩ := List.append_inj hl (by rw [name_length, name_length])
  exact eq_of_payloadText (type_eq_of_name_eq (String.toList_inj.mp hname))
    (List.cons.inj hrest).2

end Value

/-! ### Texts side by side -/

section

variable {α : Type} {a b : α}

theorem not_mem_intercalate {c : α} {sep : List α} {ls : List (List α)} (hs : c ∉ sep)
    (h : ∀ l ∈ ls, c ∉ l) : c ∉ sep.intercalate ls := by
  match ls with
  | [] => simp
  | [l] => simpa using h
  | l :: l' :: ls =>
    obtain ⟨hl, hrest⟩ := List.forall_mem_cons.mp h
    have ih := not_mem_intercalate hs hrest
    rw [List.intercalate_cons_cons, List.mem_append, List.mem_append, not_or, not_or]
    exact ⟨⟨hl, hs⟩, ih⟩

/-- The second part of a separator may be counted to what follows it. -/
theorem intercalate_pair (a b : α) (l : List α) (ls : List (List α)) :
    [a, b].intercalate (l :: ls) = [a].intercalate (l :: ls.map (b :: ·)) := by
  induction ls generalizing l with
  | nil => simp
  | cons l' ls ih =>
    have hnext : [a].intercalate ((b :: l') :: ls.map (b :: ·)) =
        b :: [a].intercalate (l' :: ls.map (b :: ·)) := by
      cases ls <;> simp
    rw [List.intercalate_cons_cons, ih, List.map_cons, List.intercalate_cons_cons, hnext]
    simp

theorem intercalate_ne_nil {l : List α} {ls : List (List α)} (sep : List α) (h : l ≠ []) :
    sep.intercalate (l :: ls) ≠ [] := by
  cases ls <;> simp [h]

/-- Lists that are joined can be told apart if none is empty and none has what they are joined
with. -/
theorem eq_of_intercalate_eq [DecidableEq α] (hab : a ≠ b) {ls ms : List (List α)}
    (hl : ∀ l ∈ ls, l ≠ [] ∧ a ∉ l) (hm : ∀ m ∈ ms, m ≠ [] ∧ a ∉ m)
    (h : [a, b].intercalate ls = [a, b].intercalate ms) : ls = ms := by
  have hsplit {l : List α} {ls : List (List α)} (hl : ∀ k ∈ l :: ls, k ≠ [] ∧ a ∉ k) :
      List.splitOn a ([a, b].intercalate (l :: ls)) = l :: ls.map (b :: ·) := by
    obtain ⟨hfirst, hrest⟩ := List.forall_mem_cons.mp hl
    rw [intercalate_pair]
    refine List.splitOn_intercalate a ?_ (by simp)
    rw [List.forall_mem_cons, List.forall_mem_map]
    refine ⟨hfirst.2, fun k hk => ?_⟩
    rw [List.mem_cons, not_or]
    exact ⟨hab, (hrest k hk).2⟩
  match ls, ms with
  | [], [] => rfl
  | [], m :: ms => exact absurd h.symm (intercalate_ne_nil _ (hm m (by simp)).1)
  | l :: ls, [] => exact absurd h (intercalate_ne_nil _ (hl l (by simp)).1)
  | l :: ls, m :: ms =>
    have hparts := congrArg (List.splitOn a) h
    rw [hsplit hl, hsplit hm] at hparts
    obtain ⟨rfl, hrest⟩ := List.cons.inj hparts
    rw [(List.map_injective_iff.mpr (List.cons_injective (a := b))) hrest]

end

namespace Snapshot

/-- The values of a snapshot with commas between them. -/
def listed (s : Snapshot) : List Char :=
  [',', ' '].intercalate (s.values.map fun v => v.text.toList)

/-- What stands after the values in the text of a snapshot. -/
def framesText (s : Snapshot) : List Char :=
  " in ".toList ++ (s.frames.repr.toList ++ " frame(s)".toList)

theorem toList_text (s : Snapshot) : s.text.toList = '[' :: s.listed ++ ']' :: s.framesText := by
  simp [text, listed, framesText, String.toList_intercalate, Function.comp_def, toString]

theorem not_mem_listed (s : Snapshot) : ']' ∉ s.listed := by
  refine not_mem_intercalate (by decide) fun l hl => ?_
  obtain ⟨v, -, rfl⟩ := List.mem_map.mp hl
  exact v.not_mem_text .bracket

theorem not_mem_framesText (s : Snapshot) : ']' ∉ s.framesText := by
  rw [framesText, List.mem_append, List.mem_append, not_or, not_or]
  exact ⟨by decide, Delimits.bracket.not_mem_decimal _, by decide⟩

theorem values_of_listed {s t : Snapshot} (h : s.listed = t.listed) : s.values = t.values := by
  have hclean (u : Snapshot) : ∀ l ∈ u.values.map fun v => v.text.toList, l ≠ [] ∧ ',' ∉ l := by
    intro l hl
    obtain ⟨v, -, rfl⟩ := List.mem_map.mp hl
    exact ⟨v.text_ne_empty, v.not_mem_text .comma⟩
  have hinjective : Function.Injective fun v : Value => v.text.toList := by
    intro v w hvw
    exact Value.text_injective (String.toList_inj.mp hvw)
  have htexts := eq_of_intercalate_eq (by decide) (hclean s) (hclean t) h
  exact List.map_injective_iff.mpr hinjective htexts

theorem frames_of_framesText {s t : Snapshot} (h : s.framesText = t.framesText) :
    s.frames = t.frames := by
  have hcount := List.append_cancel_right (List.append_cancel_left h)
  exact Nat.repr_inj.mp (String.toList_inj.mp hcount)

/-- The first bracket after the values tells them from the number of frames. -/
theorem parts_of_text {s t : Snapshot} (h : s.text = t.text) :
    s.listed = t.listed ∧ s.framesText = t.framesText := by
  have hl := congrArg String.toList h
  rw [toList_text, toList_text, List.cons_append, List.cons_append] at hl
  obtain ⟨hvalues, -, hframes⟩ :=
    (List.append_cons_inj_of_notMem s.not_mem_listed s.not_mem_framesText).mp (List.cons.inj hl).2
  exact ⟨hvalues, hframes⟩

/-- A text says all of a snapshot: those with one text have the same frames and the same values,
bit for bit. The literal of a float says what its bits mean, which for a finite one is its sign and
its exact amount. -/
theorem text_faithful :
    (∀ s t : Snapshot, s.text = t.text ↔ s.frames = t.frames ∧ s.values = t.values) ∧
    (∀ bits : UInt32, ∃ literal : List Char,
      (Value.f32 bits).text = "f32:" ++ String.ofList literal ∧
      FloatLiteral.read? literal = some (FloatFormat.single.meaning bits.toNat)) ∧
    (∀ bits : UInt64, ∃ literal : List Char,
      (Value.f64 bits).text = "f64:" ++ String.ofList literal ∧
      FloatLiteral.read? literal = some (FloatFormat.double.meaning bits.toNat)) := by
  refine ⟨fun s t => ⟨fun h => ?_, fun ⟨hf, hv⟩ => ?_⟩, fun bits => ?_, fun bits => ?_⟩
  · obtain ⟨hvalues, hframes⟩ := parts_of_text h
    exact ⟨frames_of_framesText hframes, values_of_listed hvalues⟩
  · rw [text, text, hf, hv]
  · exact ⟨_, rfl, FloatFormat.single_roomy.read?_literal bits.toNat⟩
  · exact ⟨_, rfl, FloatFormat.double_roomy.read?_literal bits.toNat⟩

/-- The negative subnormal next to zero, whose only digit is the leading one. -/
example : (Snapshot.mk [.f32 0x80000001, .i32 (-1)] 2).text =
    "[f32:-0x1p-149, i32:-1] in 2 frame(s)" := by decide

end Snapshot

end GuestGate
