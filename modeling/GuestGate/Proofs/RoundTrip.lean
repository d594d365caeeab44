import GuestGate.Proofs.Grammar

/-!
# Configurations written and read back

The text of a configuration spells the document of its two fields, so reading it gives the
configuration again, or the first of its names that is no syscall. The names stand in the order of
their characters, which is also that of their bytes.
-/

namespace GuestGate

/-- The bytes of a string. -/
def utf8 (s : String) : List UInt8 := s.toUTF8.data.toList

theorem utf8_eq (s : String) : utf8 s = s.toList.flatMap String.utf8EncodeChar := by
  have hbytes : s.toUTF8 = s.toList.utf8Encode := by
    rw [String.toUTF8_eq_toByteArray]
    conv => lhs; rw [← String.ofList_toList (s := s), String.toByteArray_ofList]
  rw [utf8, hbytes, List.utf8Encode, List.data_toByteArray]

theorem encoded_lt {c d : Char} (h : c < d) (u v : List UInt8) :
    String.utf8EncodeChar c ++ u < String.utf8EncodeChar d ++ v := by
  have hlt : c.val.toNat < d.val.toNat := UInt32.lt_iff_toNat_lt.mp h
  have hvalid : d.val.toNat < 0xD800 ∨ (0xDFFF < d.val.toNat ∧ d.val.toNat < 0x110000) := d.valid
  have hbyte {i j : Nat} (hi : i < 256) (hj : j < 256) : UInt8.ofNat i < UInt8.ofNat j ↔ i < j := by
    simp [UInt8.lt_iff_toNat_lt, Nat.mod_eq_of_lt hi, Nat.mod_eq_of_lt hj]
  have hsame {i j : Nat} (hi : i < 256) (hj : j < 256) : UInt8.ofNat i = UInt8.ofNat j ↔ i = j := by
    simp [← UInt8.toNat_inj, Nat.mod_eq_of_lt hi, Nat.mod_eq_of_lt hj]
  -- every byte but the first holds a digit in base 64
  have hsecond (k : Nat) : k / 4096 = k / 64 / 64 := by omega
  have hthird (k : Nat) : k / 262144 = k / 64 / 64 / 64 := by omega
  unfold String.utf8EncodeChar
  dsimp only
  generalize c.val.toNat = n at hlt ⊢
  generalize d.val.toNat = m at hlt hvalid ⊢
  simp only [hsecond, hthird]
  repeat' split
  all_goals
    simp (disch := omega) only [List.cons_append, List.nil_append, List.cons_lt_cons_iff, hbyte,
      hsame]
    omega

theorem encoded_lt_of_lt {cs ds : List Char} (h : cs < ds) :
    cs.flatMap String.utf8EncodeChar < ds.flatMap String.utf8EncodeChar := by
  induction cs generalizing ds with
  | nil =>
    cases ds with
    | nil => exact absurd h (List.not_lt_nil _)
    | cons d ds =>
      obtain ⟨b, bs, hb⟩ := List.exists_cons_of_ne_nil (String.utf8EncodeChar_ne_nil (c := d))
      rw [List.flatMap_cons, hb]
      exact List.nil_lt_cons b _
  | cons c cs ih =>
    cases ds with
    | nil => exact absurd h (List.not_lt_nil _)
    | cons d ds =>
      rw [List.flatMap_cons, List.flatMap_cons]
      rcases List.cons_lt_cons_iff.mp h with hlt | ⟨rfl, hlt⟩
      · exact encoded_lt hlt _ _
      · exact List.append_left_lt (ih hlt)

/-- Strings in order have their bytes in order. -/
theorem utf8_lt {s t : String} (h : s < t) : utf8 s < utf8 t := by
  rw [utf8_eq, utf8_eq]
  exact encoded_lt_of_lt h

namespace Json

theorem Spelled.next {token : Token} {ts : List Token} {t u : List Char} (ht : token.Spells t)
    (h : Spelled ts u) : Spelled (token :: ts) (t ++ u) :=
  have hnil : Blank [] := nofun
  Spelled.cons hnil ht h

end Json

namespace Config

open Json (Token Spelled)

/-- The document of both fields in order. -/
def written (c : Config) : Document :=
  .object [.allow c.allowProcessControl, .deny c.deny.names]
    (by simp [Member.key, allowKey, denyKey])

theorem written_config (c : Config) : c.written.config = c := by
  apply Config.ext
  · rw [Document.allow_config]
    cases h : c.allowProcessControl <;> simp [written, Document.members, h]
  · intro name
    rw [Document.mem_deny_config]
    simp [written, Document.members, Document.Denies]
    rfl

theorem namesText_spelled (names : List String) {ts : List Token} {u : List Char}
    (h : Spelled ts u) :
    Spelled (separated (names.map fun name => [.string name]) ++ ts) (namesText names ++ u) := by
  fun_induction namesText names with
  | case1 => exact h
  | case2 name => exact .next (Token.spells_written name) h
  | case3 name rest hne ih =>
    obtain ⟨other, more, rfl⟩ := List.exists_cons_of_ne_nil hne
    have hmore := Spelled.next (Token.spells_written name) (.next .comma ih)
    simpa [separated] using hmore

theorem toJson_spelled (c : Config) : Spelled c.written.tokens c.toJson.toList := by
  have hend : Spelled [.closeBracket, .closeBrace] [']', '\x7d'] :=
    .next .closeBracket (.next .closeBrace (.nil nofun))
  have hnames := namesText_spelled c.deny.names hend
  have hdeny := Spelled.next (Token.spells_written denyKey)
    (.next .colon (.next .openBracket hnames))
  have hflag : (Token.boolean c.allowProcessControl).Spells
      (if c.allowProcessControl then "true" else "false").toList := by
    cases c.allowProcessControl
    · exact .isFalse
    · exact .isTrue
  have hallow := Spelled.next (Token.spells_written allowKey)
    (.next .colon (.next hflag (.next .comma hdeny)))
  have hobject := Spelled.next .openBrace hallow
  have htext : c.toJson.toList = _ := String.toList_ofList
  rw [htext]
  simpa [written, Document.tokens, separated, Member.tokens, Member.value, Member.key] using hobject

theorem ofJson_toJson (c : Config) :
    ofJson c.toJson = c.unknownName?.elim (.ok c) fun name => .error (.unknownName name) := by
  rw [ofJson_spelled c.toJson_spelled, written_config]

theorem toJson_injective {c c' : Config} (h : c.toJson = c'.toJson) : c = c' := by
  have htokens : c.written.tokens = c'.written.tokens := by
    rw [← Json.tokens_of_spelled c.toJson_spelled, ← Json.tokens_of_spelled c'.toJson_spelled, h]
  have hread := document_eq_ok_iff.mpr ⟨c.written, rfl, rfl⟩
  rw [htokens, document_eq_ok_iff.mpr ⟨c'.written, rfl, rfl⟩] at hread
  calc c = c.written.config := c.written_config.symm
    _ = c'.written.config := by rw [Document.config, Document.config, Except.ok.inj hread]
    _ = c' := c'.written_config

/-- The first unknown name is the least by its bytes. -/
theorem unknownName?_eq_some {c : Config} {name : String} (h : c.unknownName? = some name) :
    name ∈ c.deny ∧ ¬Syscall.IsName name ∧
      ∀ other ∈ c.deny, ¬Syscall.IsName other → utf8 name ≤ utf8 other := by
  obtain ⟨hname, before, after, hnames, hbefore⟩ := List.find?_eq_some_iff_append.mp h
  have hmem (other : String) : other ∈ c.deny ↔ other ∈ before ++ name :: after := by
    rw [← hnames]
    rfl
  refine ⟨(hmem name).mpr (by simp), isNone_ofName?.mp hname, fun other hother hunknown => ?_⟩
  rcases List.mem_append.mp ((hmem other).mp hother) with hfirst | hrest
  · have := hbefore other hfirst
    rw [isNone_ofName?.mpr hunknown] at this
    cases this
  · rcases List.mem_cons.mp hrest with rfl | hlater
    · exact List.le_refl _
    · have hascending := c.deny.ascending
      rw [hnames] at hascending
      obtain ⟨-, hsorted, -⟩ := List.pairwise_append.mp hascending
      have hlt := (List.pairwise_cons.mp hsorted).1 other hlater
      exact List.le_of_lt (utf8_lt hlt)

theorem Known.apply {c : Config} (h : c.Known) (call : BuilderCall) : (call.apply c).Known := by
  cases call with
  | allowProcessControl allow => exact h
  | deny s =>
    intro name hmem
    rcases NameSet.mem_insert.mp hmem with rfl | hmem
    · exact ⟨s, rfl⟩
    · exact h name hmem

theorem known_build (calls : List BuilderCall) : (build calls).Known := by
  have hrun (c : Config) (h : c.Known) : (calls.foldl BuilderCall.apply c).Known := by
    induction calls generalizing c with
    | nil => exact h
    | cons call calls ih => exact ih _ (h.apply call)
  apply hrun
  intro name hmem
  exact absurd hmem (NameSet.not_mem_empty name)

/-- A configuration whose names are all syscalls is read back from its text. From any other text the
least unknown name is reported, as it is. Built and accepted configurations are of the first kind,
and no two configurations have the same text. -/
theorem toJson_round_trip (c : Config) :
    (c.Known → ofJson c.toJson = .ok c) ∧
    (¬c.Known → ∃ name ∈ c.deny, ¬Syscall.IsName name ∧
      (∀ other ∈ c.deny, ¬Syscall.IsName other → utf8 name ≤ utf8 other) ∧
      ofJson c.toJson = .error (.unknownName name) ∧
      (Problem.unknownName name).message = "unknown syscall in deny list: " ++ name) ∧
    (∀ calls, c = build calls → ofJson c.toJson = .ok c) ∧
    (∀ text, ofJson text = .ok c → ofJson c.toJson = .ok c) ∧
    ∀ c', c.toJson = c'.toJson → c = c' := by
  have hknown (h : c.Known) : ofJson c.toJson = .ok c := by
    rw [ofJson_toJson, unknownName?_eq_none_iff.mpr h, Option.elim_none]
  refine ⟨hknown, ?_, ?_, ?_, fun _ => toJson_injective⟩
  · intro h
    cases hunknown : c.unknownName? with
    | none => exact absurd (unknownName?_eq_none_iff.mp hunknown) h
    | some name =>
      obtain ⟨hmem, hname, hleast⟩ := unknownName?_eq_some hunknown
      refine ⟨name, hmem, hname, hleast, ?_, ?_⟩
      · rw [ofJson_toJson, hunknown, Option.elim_some]
      · rfl
  · rintro calls rfl
    exact hknown (known_build calls)
  · intro text h
    obtain ⟨d, -, hmeans⟩ := ofJson_eq_ok_iff.mp h
    exact hknown hmeans.known

/-- Two names that are no syscalls, with characters that need escapes. -/
def misnaming : Config := ⟨true, .ofList ["zap\n", "fork", "a\"\\é\x01"]⟩

theorem misnaming_reported :
    ofJson misnaming.toJson = .error (.unknownName "a\"\\é\x01") ∧
    ofJson (build [.allowProcessControl true, .deny .kill]).toJson =
      .ok (build [.allowProcessControl true, .deny .kill]) := by
  have hmem {name : String} (h : name ∈ misnaming.deny) :
      name = "zap\n" ∨ name = "fork" ∨ name = "a\"\\é\x01" := by
    simpa using NameSet.mem_ofList.mp h
  have hunknown : ¬Syscall.IsName "a\"\\é\x01" := isNone_ofName?.mp (by decide)
  have hfork : Syscall.IsName "fork" := ⟨.fork, rfl⟩
  have hnot : ¬misnaming.Known := fun h => hunknown (h _ (by decide))
  obtain ⟨name, hname, hbad, hleast, hanswer, -⟩ := (toJson_round_trip misnaming).2.1 hnot
  refine ⟨?_, (toJson_round_trip _).1 (known_build _)⟩
  have hle := hleast "a\"\\é\x01" (by decide) hunknown
  rcases hmem hname with rfl | rfl | rfl
  · exact absurd (utf8_lt (by decide)) (List.not_lt.mpr hle)
  · exact absurd hfork hbad
  · exact hanswer

end Config

end GuestGate
