import GuestGate.Json.Token

/-!
# The spellings of a JSON text

A string has many spellings, since any character may be written by its code units and some by a
letter. Reading gives back the string that a spelling spells, whatever follows its closing quote.
Tokens are read from exactly the texts that spell them one after the other, with blanks between.
-/

namespace GuestGate.Json

namespace Quoted

/-- A hexadecimal digit of either case and its value. -/
inductive HexDigit : Char → Nat → Prop where
  | decimal {d : Nat} : d < 10 → HexDigit (Char.ofNat (48 + d)) d
  | lower {d : Nat} : d < 6 → HexDigit (Char.ofNat (97 + d)) (10 + d)
  | upper {d : Nat} : d < 6 → HexDigit (Char.ofNat (65 + d)) (10 + d)

/-- Four hexadecimal digits and their value. -/
inductive FourDigits : List Char → Nat → Prop where
  | mk {a b c d : Char} {i j k l : Nat} : HexDigit a i → HexDigit b j → HexDigit c k →
    HexDigit d l → FourDigits [a, b, c, d] (i * 4096 + j * 256 + k * 16 + l)

/-- The 16-bit code units of a character: one, or the two of a surrogate pair. -/
def utf16 (c : Char) : List Nat :=
  if c.toNat < 0x10000 then [c.toNat]
  else [0xD800 + (c.toNat - 0x10000) / 0x400, 0xDC00 + (c.toNat - 0x10000) % 0x400]

/-- The letters that name a character after an escape sign. -/
def letters : List (Char × Char) :=
  [('"', '"'), ('\\', '\\'), ('/', '/'), ('b', '\x08'), ('f', '\x0c'), ('n', '\n'), ('r', '\r'),
    ('t', '\t')]

/-- A character written by its code units, each in four digits. -/
inductive ByUnits (c : Char) : List Char → Prop where
  | one {n : Nat} {q : List Char} : utf16 c = [n] → FourDigits q n → ByUnits c ('\\' :: 'u' :: q)
  | two {n m : Nat} {q r : List Char} : utf16 c = [n, m] → FourDigits q n → FourDigits r m →
    ByUnits c ('\\' :: 'u' :: q ++ '\\' :: 'u' :: r)

/-- The ways to write a character inside a string. -/
inductive SpellsCharacter (c : Char) : List Char → Prop where
  | plain : c ≠ '"' → c ≠ '\\' → 0x20 ≤ c.toNat → SpellsCharacter c [c]
  | letter {e : Char} : (e, c) ∈ letters → SpellsCharacter c ['\\', e]
  | units {t : List Char} : ByUnits c t → SpellsCharacter c t

/-- The ways to write a string, without its quotes. -/
inductive Spells : List Char → List Char → Prop where
  | nil : Spells [] []
  | cons {c : Char} {s t u : List Char} : SpellsCharacter c t → Spells s u →
    Spells (c :: s) (t ++ u)

theorem toNat_ofNat {n : Nat} (h : n < 0xD800 ∨ (0xDFFF < n ∧ n < 0x110000)) :
    (Char.ofNat n).toNat = n := by
  have hv : n.isValidChar := h
  rw [Char.ofNat, dif_pos hv]
  rfl

theorem le_iff_toNat_le {c d : Char} : c ≤ d ↔ c.toNat ≤ d.toNat :=
  Char.le_def.trans UInt32.le_iff_toNat_le

theorem hexValue?_eq_some_iff {c : Char} {n : Nat} : hexValue? c = some n ↔ HexDigit c n := by
  have hchar : Char.ofNat c.toNat = c := Char.ofNat_toNat c
  constructor
  · intro h
    simp only [hexValue?, Bool.and_eq_true, decide_eq_true_eq, le_iff_toNat_le,
      Char.reduceToNat] at h
    split at h
    next hr =>
      rw [← hchar, show c.toNat = 48 + n by simp at h; omega]
      exact .decimal (by simp at h; omega)
    next =>
      split at h
      next hr =>
        obtain ⟨d, hd, rfl⟩ : ∃ d, d < 6 ∧ n = 10 + d :=
          ⟨c.toNat - 97, by omega, by simp at h; omega⟩
        rw [← hchar, show c.toNat = 97 + d by simp at h; omega]
        exact .lower hd
      next =>
        split at h
        next hr =>
          obtain ⟨d, hd, rfl⟩ : ∃ d, d < 6 ∧ n = 10 + d :=
            ⟨c.toNat - 65, by omega, by simp at h; omega⟩
          rw [← hchar, show c.toNat = 65 + d by simp at h; omega]
          exact .upper hd
        · cases h
  · intro h
    simp only [hexValue?, Bool.and_eq_true, decide_eq_true_eq, le_iff_toNat_le, Char.reduceToNat]
    cases h with
    | decimal hd =>
      rw [toNat_ofNat (by omega), if_pos (by omega)]
      simp
    | lower hd =>
      rw [toNat_ofNat (by omega), if_neg (by omega), if_pos (by omega)]
      simp; omega
    | upper hd =>
      rw [toNat_ofNat (by omega), if_neg (by omega), if_neg (by omega), if_pos (by omega)]
      simp; omega

theorem HexDigit.lt {c : Char} {n : Nat} (h : HexDigit c n) : n < 16 := by
  cases h <;> omega

theorem FourDigits.lt {q : List Char} {n : Nat} (h : FourDigits q n) : n < 0x10000 := by
  cases h with
  | mk ha hb hc hd =>
    have := ha.lt
    have := hb.lt
    have := hc.lt
    have := hd.lt
    omega

theorem quad_eq_ok_iff {cs rest : List Char} {n : Nat} :
    quad cs = .ok (n, rest) ↔ ∃ q, FourDigits q n ∧ cs = q ++ rest := by
  constructor
  · intro h
    unfold quad at h
    split at h
    next a b c d tail =>
      split at h
      next i j k l ha hb hc hd =>
        cases h
        exact ⟨[a, b, c, d], .mk (hexValue?_eq_some_iff.mp ha) (hexValue?_eq_some_iff.mp hb)
          (hexValue?_eq_some_iff.mp hc) (hexValue?_eq_some_iff.mp hd), rfl⟩
      · cases h
    · cases h
  · rintro ⟨q, hq, rfl⟩
    cases hq with
    | mk ha hb hc hd =>
      simp only [List.cons_append, List.nil_append, quad, hexValue?_eq_some_iff.mpr ha,
        hexValue?_eq_some_iff.mpr hb, hexValue?_eq_some_iff.mpr hc, hexValue?_eq_some_iff.mpr hd]

theorem toNat_valid (c : Char) :
    c.toNat < 0xD800 ∨ (0xDFFF < c.toNat ∧ c.toNat < 0x110000) := c.valid

theorem utf16_eq_one_iff {c : Char} {n : Nat} : utf16 c = [n] ↔ c.toNat = n ∧ n < 0x10000 := by
  unfold utf16
  split
  · simp; omega
  · simp; omega

theorem utf16_eq_two_iff {c : Char} {n m : Nat} :
    utf16 c = [n, m] ↔ isHighSurrogate n = true ∧ isLowSurrogate m = true ∧
      c.toNat = 0x10000 + (n - 0xD800) * 0x400 + (m - 0xDC00) := by
  have hv := toNat_valid c
  simp only [utf16, isHighSurrogate, isLowSurrogate, Bool.and_eq_true, decide_eq_true_eq]
  split
  · simp; omega
  · simp; omega

theorem utf16_unit {n : Nat} (hlow : ¬isLowSurrogate n = true) (hhigh : ¬isHighSurrogate n = true)
    (hlt : n < 0x10000) : utf16 (Char.ofNat n) = [n] := by
  simp only [isHighSurrogate, isLowSurrogate, Bool.and_eq_true, decide_eq_true_eq] at hhigh hlow
  exact utf16_eq_one_iff.mpr ⟨toNat_ofNat (by omega), hlt⟩

theorem utf16_pair {n m : Nat} (hhigh : isHighSurrogate n = true) (hlow : isLowSurrogate m = true) :
    utf16 (Char.ofNat (0x10000 + (n - 0xD800) * 0x400 + (m - 0xDC00))) = [n, m] := by
  refine utf16_eq_two_iff.mpr ⟨hhigh, hlow, toNat_ofNat ?_⟩
  simp only [isHighSurrogate, isLowSurrogate, Bool.and_eq_true, decide_eq_true_eq] at hhigh hlow
  omega

theorem not_surrogate {c : Char} {n : Nat} (h : utf16 c = [n]) :
    isLowSurrogate n = false ∧ isHighSurrogate n = false := by
  have hv := toNat_valid c
  obtain ⟨rfl, -⟩ := utf16_eq_one_iff.mp h
  simp [isLowSurrogate, isHighSurrogate]
  omega

theorem codeUnits_eq_ok_iff {cs rest : List Char} {c : Char} :
    codeUnits cs = .ok (c, rest) ↔ ∃ t, ByUnits c t ∧ '\\' :: 'u' :: cs = t ++ rest := by
  constructor
  · intro h
    unfold codeUnits at h
    split at h
    · cases h
    next n after hn =>
      obtain ⟨q, hq, rfl⟩ := quad_eq_ok_iff.mp hn
      have hlt := hq.lt
      split at h
      · cases h
      next hlow =>
        split at h
        next hhigh =>
          split at h
          · cases h
          · cases h
          next more =>
            split at h
            · cases h
            next m after hm =>
              obtain ⟨r, hr, rfl⟩ := quad_eq_ok_iff.mp hm
              split at h
              next hlow' =>
                simp only [Except.ok.injEq, Prod.mk.injEq] at h
                obtain ⟨rfl, rfl⟩ := h
                exact ⟨_, .two (utf16_pair hhigh hlow') hq hr, by simp⟩
              · cases h
          · cases h
        next hhigh =>
          cases h
          exact ⟨_, .one (utf16_unit hlow hhigh hlt) hq, rfl⟩
  · rintro ⟨t, ht, he⟩
    cases ht with
    | @one n q hu hq =>
      obtain ⟨-, hcs⟩ : True ∧ cs = q ++ rest := by simpa using he
      obtain ⟨hlow, hhigh⟩ := not_surrogate hu
      obtain ⟨rfl, -⟩ := utf16_eq_one_iff.mp hu
      simp [codeUnits, quad_eq_ok_iff.mpr ⟨q, hq, hcs⟩, hlow, hhigh]
    | @two n m q r hu hq hr =>
      have hcs : cs = q ++ '\\' :: 'u' :: (r ++ rest) := by simpa using he
      obtain ⟨hhigh, hlow, hc⟩ := utf16_eq_two_iff.mp hu
      have hnlow : isLowSurrogate n = false := by
        simp [isHighSurrogate, isLowSurrogate] at hhigh ⊢
        omega
      have hfirst := quad_eq_ok_iff.mpr ⟨q, hq, hcs⟩
      have hsecond : quad (r ++ rest) = .ok (m, rest) := quad_eq_ok_iff.mpr ⟨r, hr, rfl⟩
      simp [codeUnits, hfirst, hnlow, hhigh, hsecond, hlow, ← hc]

theorem named?_eq_some_iff {e c : Char} : named? e = some c ↔ (e, c) ∈ letters := by
  unfold named?
  split <;> simp_all [letters, eq_comm]

theorem escape_eq_ok_iff {cs rest : List Char} {c : Char} :
    escape cs = .ok (c, rest) ↔
      (∃ e, (e, c) ∈ letters ∧ cs = e :: rest) ∨ ∃ t, ByUnits c t ∧ '\\' :: cs = t ++ rest := by
  unfold escape
  split
  · simp only [reduceCtorEq, exists_false, and_false, false_or, false_iff]
    rintro ⟨t, ht, he⟩
    cases ht <;> simp at he
  next after =>
    have hu : ∀ e, ((e, c) ∈ letters ∧ 'u' :: after = e :: rest) ↔ False := by
      rintro e
      simp [letters]
      rintro h rfl
      simp at h
    simp only [hu, exists_false, false_or]
    exact codeUnits_eq_ok_iff
  next e after hne =>
    have hu : ∀ t, ¬(ByUnits c t ∧ '\\' :: e :: after = t ++ rest) := by
      rintro t ⟨ht, he⟩
      cases ht <;> simp at he <;> exact hne he.1
    simp only [hu, exists_false, or_false, ← named?_eq_some_iff]
    cases hd : named? e with
    | none =>
      simp only [reduceCtorEq, false_iff]
      rintro ⟨e', he', ⟨⟩⟩
      rw [hd] at he'
      cases he'
    | some d =>
      simp only [Except.ok.injEq, Prod.mk.injEq, List.cons.injEq]
      constructor
      · rintro ⟨rfl, rfl⟩
        exact ⟨e, hd, rfl, rfl⟩
      · rintro ⟨e', he', rfl, rfl⟩
        exact ⟨Option.some.inj (hd.symm.trans he'), rfl⟩

theorem spells_of_read {cs s rest : List Char} (h : read cs = .ok (s, rest)) :
    ∃ t, Spells s t ∧ cs = t ++ '"' :: rest := by
  fun_induction read cs generalizing s rest with
  | case1 => cases h
  | case2 => cases h; exact ⟨[], .nil, rfl⟩
  | case3 => cases h
  | case4 cs d after he hl hq ih =>
    obtain ⟨g, hg, hs⟩ := ok_of_map h
    cases hs
    obtain ⟨u, hu, rfl⟩ := ih hg
    rcases escape_eq_ok_iff.mp he with ⟨e, hmem, rfl⟩ | ⟨t, ht, heq⟩
    · exact ⟨['\\', e] ++ u, .cons (.letter hmem) hu, rfl⟩
    · exact ⟨t ++ u, .cons (.units ht) hu, by rw [heq, List.append_assoc]⟩
  | case5 => cases h
  | case6 c cs hq he hc ih =>
    obtain ⟨g, hg, hs⟩ := ok_of_map h
    cases hs
    obtain ⟨u, hu, rfl⟩ := ih hg
    exact ⟨[c] ++ u, .cons (.plain hq he (by omega)) hu, rfl⟩

theorem read_spelled {s t : List Char} (h : Spells s t) (rest : List Char) :
    read (t ++ '"' :: rest) = .ok (s, rest) := by
  induction h with
  | nil => simp [read]
  | @cons c s t u hc hs ih =>
    rw [List.append_assoc]
    have hescaped {after : List Char} (he : escape after = .ok (c, u ++ '"' :: rest)) :
        read ('\\' :: after) = .ok (c :: s, rest) := by
      rw [read]
      simp only [Char.reduceEq, if_false, if_true]
      split
      next hp => simp [he] at hp
      next d after' hd =>
        rw [he] at hd
        cases hd
        rw [ih]
        rfl
    cases hc with
    | plain hq he hc => simp [read, hq, he, Nat.not_lt.mpr hc, ih, Except.map]
    | letter hmem => exact hescaped (escape_eq_ok_iff.mpr (.inl ⟨_, hmem, rfl⟩))
    | units ht =>
      obtain ⟨v, rfl⟩ : ∃ v, t = '\\' :: v := by cases ht <;> exact ⟨_, rfl⟩
      exact hescaped (escape_eq_ok_iff.mpr (.inr ⟨_, ht, rfl⟩))

theorem read_eq_ok_iff {cs s rest : List Char} :
    read cs = .ok (s, rest) ↔ ∃ t, Spells s t ∧ cs = t ++ '"' :: rest := by
  refine ⟨spells_of_read, ?_⟩
  rintro ⟨t, ht, rfl⟩
  exact read_spelled ht rest

theorem letter_of_short? {c e : Char} (h : short? c = some e) : (e, c) ∈ letters := by
  unfold short? at h
  split at h <;> cases h <;> simp [letters]

theorem hexDigit_digit {n : Nat} (h : n < 16) : HexDigit (Hex.digit n) n := by
  unfold Hex.digit
  split
  next hlow => exact .decimal hlow
  next hhigh =>
    obtain ⟨d, rfl⟩ : ∃ d, n = 10 + d := ⟨n - 10, by omega⟩
    rw [show 87 + (10 + d) = 97 + d by omega]
    exact .lower (by omega)

theorem fourDigits_fixed {n : Nat} (h : n < 0x10000) : FourDigits (Hex.fixed 4 n) n := by
  have hvalue : n = (n >>> (4 * 3)) % 16 * 4096 + (n >>> (4 * 2)) % 16 * 256 +
      (n >>> (4 * 1)) % 16 * 16 + (n >>> (4 * 0)) % 16 := by
    simp only [Nat.shiftRight_eq_div_pow]
    omega
  have hdigit (k : Nat) : HexDigit (Hex.digit (n >>> k % 16)) (n >>> k % 16) :=
    hexDigit_digit (Nat.mod_lt _ (by decide))
  have hfour := FourDigits.mk (hdigit (4 * 3)) (hdigit (4 * 2)) (hdigit (4 * 1)) (hdigit (4 * 0))
  rwa [← hvalue] at hfour

theorem spells_writeCharacter (c : Char) : SpellsCharacter c (writeCharacter c) := by
  unfold writeCharacter
  split
  next e h => exact .letter (letter_of_short? h)
  next hshort =>
    split
    next hcontrol =>
      have hone : utf16 c = [c.toNat] := utf16_eq_one_iff.mpr ⟨rfl, by omega⟩
      exact .units (.one hone (fourDigits_fixed (by omega)))
    next hvisible =>
      refine .plain ?_ ?_ (by omega)
      · rintro rfl
        simp [short?] at hshort
      · rintro rfl
        simp [short?] at hshort

/-- A string is written as one of its spellings. -/
theorem spells_write (s : List Char) : Spells s (s.flatMap writeCharacter) := by
  induction s with
  | nil => exact .nil
  | cons c s ih => exact .cons (spells_writeCharacter c) ih

end Quoted

/-- Characters that may stand between two tokens. -/
def Blank (cs : List Char) : Prop := ∀ c ∈ cs, c = ' ' ∨ c = '\t' ∨ c = '\n' ∨ c = '\r'

namespace Token

/-- The ways to write a token that is no number. -/
inductive Spells : Token → List Char → Prop where
  | openBrace : Spells .openBrace ['\x7b']
  | closeBrace : Spells .closeBrace ['\x7d']
  | openBracket : Spells .openBracket ['[']
  | closeBracket : Spells .closeBracket [']']
  | colon : Spells .colon [':']
  | comma : Spells .comma [',']
  | null : Spells .null ['n', 'u', 'l', 'l']
  | isTrue : Spells (.boolean true) ['t', 'r', 'u', 'e']
  | isFalse : Spells (.boolean false) ['f', 'a', 'l', 's', 'e']
  | string {s : String} {t : List Char} : Quoted.Spells s.toList t →
    Spells (.string s) ('"' :: t ++ ['"'])

end Token

/-- The texts that tokens are written as, with blanks between them and around them. -/
inductive Spelled : List Token → List Char → Prop where
  | nil {blanks : List Char} : Blank blanks → Spelled [] blanks
  | cons {token : Token} {rest : List Token} {blanks t u : List Char} : Blank blanks →
    token.Spells t → Spelled rest u → Spelled (token :: rest) (blanks ++ t ++ u)

theorem isBlank_iff {c : Char} :
    isBlank c = true ↔ c = ' ' ∨ c = '\t' ∨ c = '\n' ∨ c = '\r' := by
  simp [isBlank, or_assoc]

namespace Token

theorem spells_written (s : String) : (string s).Spells (Quoted.write s.toList) :=
  .string (Quoted.spells_write s.toList)

theorem Spells.not_broken {token : Token} {t : List Char} (h : token.Spells t) :
    token.isBroken = false := by
  cases h <;> rfl

theorem literal_append (token : Token) (word rest : List Char) :
    literal token word (word ++ rest) = (token, rest) := by
  induction word with
  | nil => rfl
  | cons w word ih => simp [literal, ih]

theorem eq_append_of_literal {token read : Token} {word cs rest : List Char}
    (h : literal token word cs = (read, rest)) (hr : read.isBroken = false) :
    read = token ∧ cs = word ++ rest := by
  induction word generalizing cs with
  | nil =>
    simp only [literal, Prod.mk.injEq] at h
    exact ⟨h.1.symm, h.2⟩
  | cons w word ih =>
    cases cs with
    | nil => cases h; cases hr
    | cons c cs =>
      rw [literal] at h
      split at h
      next hc =>
        obtain ⟨rfl, rfl⟩ := ih h
        exact ⟨rfl, by rw [hc]; rfl⟩
      · cases h; cases hr

/-- The next token of a text that begins with a spelling is the one spelled. -/
theorem next_of_spells {token : Token} {t : List Char} (h : token.Spells t) (rest : List Char) :
    ∃ c cs, t ++ rest = c :: cs ∧ isBlank c = false ∧ next c cs = (token, rest) := by
  cases h with
  | @string s t ht =>
    refine ⟨'"', t ++ '"' :: rest, by simp, by decide, ?_⟩
    simp [next, Quoted.read_eq_ok_iff.mpr ⟨_, ht, rfl⟩, ofString]
  | null => exact ⟨_, _, rfl, by decide, literal_append .null ['u', 'l', 'l'] rest⟩
  | isTrue => exact ⟨_, _, rfl, by decide, literal_append (.boolean true) ['r', 'u', 'e'] rest⟩
  | isFalse =>
    exact ⟨_, _, rfl, by decide, literal_append (.boolean false) ['a', 'l', 's', 'e'] rest⟩
  | _ => exact ⟨_, _, rfl, by decide, rfl⟩

/-- A token that has spellings is read from one of them. -/
theorem spells_of_next {token : Token} {c : Char} {cs rest : List Char}
    (h : next c cs = (token, rest)) (hs : ∃ t, token.Spells t) :
    ∃ t, token.Spells t ∧ c :: cs = t ++ rest := by
  have hnumber {x : Except Problem (Number × List Char)} : ofNumber x ≠ (token, rest) := by
    obtain ⟨t, ht⟩ := hs
    intro hx
    cases x <;> cases hx <;> cases ht
  have hclean : token.isBroken = false := hs.elim fun _ ht => ht.not_broken
  unfold next at h
  split at h
  case h_1 => cases h; exact ⟨_, .openBrace, rfl⟩
  case h_2 => cases h; exact ⟨_, .closeBrace, rfl⟩
  case h_3 => cases h; exact ⟨_, .openBracket, rfl⟩
  case h_4 => cases h; exact ⟨_, .closeBracket, rfl⟩
  case h_5 => cases h; exact ⟨_, .colon, rfl⟩
  case h_6 => cases h; exact ⟨_, .comma, rfl⟩
  case h_7 =>
    obtain ⟨rfl, rfl⟩ := eq_append_of_literal h hclean
    exact ⟨_, .null, rfl⟩
  case h_8 =>
    obtain ⟨rfl, rfl⟩ := eq_append_of_literal h hclean
    exact ⟨_, .isTrue, rfl⟩
  case h_9 =>
    obtain ⟨rfl, rfl⟩ := eq_append_of_literal h hclean
    exact ⟨_, .isFalse, rfl⟩
  case h_10 =>
    cases hr : Quoted.read cs with
    | error p =>
      rw [hr] at h
      cases h
      cases hclean
    | ok pair =>
      obtain ⟨s, after⟩ := pair
      rw [hr] at h
      cases h
      obtain ⟨t, ht, rfl⟩ := Quoted.read_eq_ok_iff.mp hr
      exact ⟨_, .string (by rwa [String.toList_ofList]), by simp⟩
  case h_11 => exact absurd h hnumber
  case h_12 =>
    split at h
    · exact absurd h hnumber
    · cases h; cases hclean

end Token

theorem tokens_blanks {blanks : List Char} (h : Blank blanks) (cs : List Char) :
    tokens (blanks ++ cs) = tokens cs := by
  induction blanks with
  | nil => rfl
  | cons c blanks ih =>
    obtain ⟨hc, hr⟩ := List.forall_mem_cons.mp h
    rw [List.cons_append, tokens, if_pos (isBlank_iff.mpr hc), ih hr]

theorem tokens_next {token : Token} {c : Char} {cs rest : List Char} (hc : isBlank c = false)
    (hn : Token.next c cs = (token, rest)) (hb : token.isBroken = false) :
    tokens (c :: cs) = token :: tokens rest := by
  rw [tokens, if_neg (by simp [hc])]
  split
  next token' rest' he =>
    rw [hn] at he
    cases he
    simp [hb]

/-- A text is read as the tokens it spells. -/
theorem tokens_of_spelled {ts : List Token} {cs : List Char} (h : Spelled ts cs) :
    tokens cs = ts := by
  induction h with
  | nil hb =>
    have := tokens_blanks hb []
    simpa [tokens] using this
  | @cons token rest blanks t u hb ht _ ih =>
    obtain ⟨c, cs, he, hc, hn⟩ := Token.next_of_spells ht u
    rw [List.append_assoc, tokens_blanks hb, he, tokens_next hc hn ht.not_broken, ih]

theorem Blank.cons_spelled {c : Char} {ts : List Token} {cs : List Char} (hc : isBlank c = true)
    (h : Spelled ts cs) : Spelled ts (c :: cs) := by
  have hb {blanks : List Char} (h : Blank blanks) : Blank (c :: blanks) :=
    List.forall_mem_cons.mpr ⟨isBlank_iff.mp hc, h⟩
  cases h with
  | nil hn => exact .nil (hb hn)
  | cons hn ht hr => exact .cons (hb hn) ht hr

/-- A text that is read as tokens with spellings spells them. -/
theorem spelled_of_tokens {cs : List Char} (h : ∀ token ∈ tokens cs, ∃ t, token.Spells t) :
    Spelled (tokens cs) cs := by
  fun_induction tokens cs with
  | case1 => exact .nil nofun
  | case2 c cs hc ih => exact Blank.cons_spelled hc (ih h)
  | case3 c cs hc token rest hn hl hbroken =>
    obtain ⟨t, ht⟩ := h token (by simp)
    rw [ht.not_broken] at hbroken
    cases hbroken
  | case4 c cs hc token rest hn hl hbroken ih =>
    obtain ⟨hs, hrest⟩ := List.forall_mem_cons.mp h
    obtain ⟨t, ht, he⟩ := Token.spells_of_next hn hs
    rw [he]
    have hnil : Blank [] := nofun
    exact Spelled.cons hnil ht (ih hrest)

/-- The texts that spell tokens are those that are read as them. -/
theorem spelled_iff {ts : List Token} {cs : List Char} :
    Spelled ts cs ↔ tokens cs = ts ∧ ∀ token ∈ ts, ∃ t, token.Spells t := by
  constructor
  · intro h
    refine ⟨tokens_of_spelled h, ?_⟩
    induction h with
    | nil => nofun
    | cons _ ht _ ih => exact List.forall_mem_cons.mpr ⟨⟨_, ht⟩, ih⟩
  · rintro ⟨rfl, h⟩
    exact spelled_of_tokens h

end GuestGate.Json
