import GuestGate.Config.Text
import GuestGate.Proofs.Checks
import GuestGate.Proofs.Spelling

/-!
# The texts that are configurations

A document lists the fields as an object or as an array. Reading accepts exactly the spellings of
documents whose denied names are all syscalls, and returns the configuration that the document
describes, so nothing but the flag and the set of names shows in the result.
-/

namespace GuestGate

theorem NameSet.ext {s t : NameSet} (h : ∀ name, name ∈ s ↔ name ∈ t) : s = t := by
  obtain ⟨xs, hx⟩ := s
  obtain ⟨ys, hy⟩ := t
  have hperm : xs.Perm ys := by
    refine (List.perm_ext_iff_of_nodup ?_ ?_).mpr h
    · exact hx.imp fun hlt => Std.ne_of_lt hlt
    · exact hy.imp fun hlt => Std.ne_of_lt hlt
  obtain rfl : xs = ys :=
    hperm.eq_of_pairwise (fun _ _ _ _ hab hba => (String.lt_asymm hab hba).elim) hx hy
  rfl

def Syscall.IsName (name : String) : Prop := ∃ s : Syscall, s.name = name

namespace Config

open Json (Token Spelled)

theorem ext {c c' : Config} (hallow : c.allowProcessControl = true ↔ c'.allowProcessControl = true)
    (hdeny : ∀ name, name ∈ c.deny ↔ name ∈ c'.deny) : c = c' := by
  obtain ⟨allow, deny⟩ := c
  obtain ⟨allow', deny'⟩ := c'
  obtain rfl : allow = allow' := Bool.eq_iff_iff.mpr hallow
  obtain rfl : deny = deny' := NameSet.ext hdeny
  rfl

/-- Every denied name is a syscall's. -/
def Known (c : Config) : Prop := ∀ name ∈ c.deny, Syscall.IsName name

/-- A field with a value. -/
inductive Member where
  | allow (b : Bool)
  | deny (names : List String)
deriving DecidableEq, Repr

/-- Items with a comma between each two. -/
def separated : List (List Token) → List Token
  | [] => []
  | item :: rest => item ++ rest.flatMap (.comma :: ·)

namespace Member

def key : Member → String
  | .allow _ => allowKey
  | .deny _ => denyKey

def value : Member → List Token
  | .allow b => [.boolean b]
  | .deny names =>
    .openBracket :: separated (names.map fun name => [.string name]) ++ [.closeBracket]

def tokens (e : Member) : List Token := .string e.key :: .colon :: e.value

end Member

/-- What a configuration is written as: an object with distinct keys, or an array with the fields
by position. -/
inductive Document where
  | object (members : List Member) (distinct : (members.map Member.key).Nodup)
  | array (members : List Member) (inOrder : members.map Member.key <+: [allowKey, denyKey])

namespace Document

def members : Document → List Member
  | .object es _ => es
  | .array es _ => es

def tokens : Document → List Token
  | .object es _ => .openBrace :: separated (es.map Member.tokens) ++ [.closeBrace]
  | .array es _ => .openBracket :: separated (es.map Member.value) ++ [.closeBracket]

/-- A name is among those to deny. -/
def Denies (d : Document) (name : String) : Prop :=
  ∃ names, .deny names ∈ d.members ∧ name ∈ names

/-- The configuration that a document describes: the flag is down unless the document puts it up,
and the names are those denied, each the name of a syscall. -/
structure Means (d : Document) (c : Config) : Prop where
  allow : c.allowProcessControl = true ↔ .allow true ∈ d.members
  deny : ∀ name, name ∈ c.deny ↔ d.Denies name
  known : c.Known

end Document

/-! ## Reading the parts -/

section

variable {ts rest : List Token}

theorem readBoolean_eq_ok_iff {b : Bool} :
    readBoolean ts = .ok (b, rest) ↔ ts = .boolean b :: rest := by
  unfold readBoolean
  split
  · simp
  next hne =>
    simp only [reduceCtorEq, false_iff]
    rintro rfl
    exact hne b rest rfl

theorem eq_of_moreNames {names : List String} (h : moreNames ts = .ok (names, rest)) :
    ts = (names.map fun name => [Token.string name]).flatMap (.comma :: ·) ++
      .closeBracket :: rest := by
  fun_induction moreNames ts generalizing names with
  | case2 => cases h; rfl
  | case4 name after ih =>
    obtain ⟨⟨names', rest'⟩, hr, hn⟩ := map_eq_ok_iff.mp h
    cases hn
    rw [ih hr]
    simp
  | _ => cases h

theorem moreNames_listed (names : List String) (rest : List Token) :
    moreNames ((names.map fun name => [Token.string name]).flatMap (.comma :: ·) ++
      .closeBracket :: rest) = .ok (names, rest) := by
  induction names with
  | nil => rfl
  | cons name names ih =>
    simp only [List.map_cons, List.flatMap_cons, List.cons_append, List.nil_append]
    rw [moreNames, ih]
    rfl

theorem readNames_eq_ok_iff {names : List String} :
    readNames ts = .ok (names, rest) ↔ ts = (Member.deny names).value ++ rest := by
  constructor
  · intro h
    unfold readNames at h
    split at h
    · cases h
    · cases h; rfl
    next name after =>
      obtain ⟨⟨names', rest'⟩, hr, hn⟩ := map_eq_ok_iff.mp h
      cases hn
      rw [eq_of_moreNames hr]
      simp [Member.value, separated]
    · cases h
    · cases h
  · rintro rfl
    cases names with
    | nil => rfl
    | cons name names =>
      have := moreNames_listed names rest
      simp only [Member.value, separated, List.map_cons, List.cons_append, List.nil_append,
        List.append_assoc]
      rw [readNames, this]
      rfl

theorem afterColon_eq_ok_iff : afterColon ts = .ok rest ↔ ts = .colon :: rest := by
  unfold afterColon
  split
  · simp
  · simp
  next hne =>
    simp only [reduceCtorEq, false_iff]
    exact hne rest

/-! ## Collecting the fields -/

namespace Members

def put (m : Members) : Member → Members
  | .allow b => { m with allow := some b }
  | .deny names => { m with deny := some names }

/-- The field is still to come. -/
def Lacks (m : Members) : Member → Prop
  | .allow _ => m.allow = none
  | .deny _ => m.deny = none

/-- Fields that may still come, each once. -/
structure Accepts (m : Members) (es : List Member) : Prop where
  distinct : (es.map Member.key).Nodup
  lacks : ∀ e ∈ es, m.Lacks e

theorem lacks_put {m : Members} {e e' : Member} :
    (m.put e).Lacks e' ↔ e'.key ≠ e.key ∧ m.Lacks e' := by
  cases e <;> cases e' <;> simp [put, Lacks, Member.key, allowKey, denyKey]

theorem accepts_cons {m : Members} {e : Member} {es : List Member} :
    m.Accepts (e :: es) ↔ m.Lacks e ∧ (m.put e).Accepts es := by
  constructor
  · rintro ⟨hd, hl⟩
    obtain ⟨hne, hd⟩ := List.nodup_cons.mp hd
    obtain ⟨he, hl⟩ := List.forall_mem_cons.mp hl
    refine ⟨he, hd, fun e' h => lacks_put.mpr ⟨fun heq => ?_, hl e' h⟩⟩
    exact hne (heq ▸ List.mem_map_of_mem h)
  · rintro ⟨he, hd, hl⟩
    refine ⟨List.nodup_cons.mpr ⟨fun hmem => ?_, hd⟩, List.forall_mem_cons.mpr ⟨he, fun e' h => ?_⟩⟩
    · obtain ⟨e', h, heq⟩ := List.mem_map.mp hmem
      exact (lacks_put.mp (hl e' h)).1 heq
    · exact (lacks_put.mp (hl e' h)).2

theorem allow_foldl_put {m : Members} {es : List Member} {b : Bool} (h : m.Accepts es) :
    (es.foldl put m).allow = some b ↔ m.allow = some b ∨ .allow b ∈ es := by
  induction es generalizing m with
  | nil => simp
  | cons e es ih =>
    obtain ⟨he, hes⟩ := accepts_cons.mp h
    rw [List.foldl_cons, ih hes]
    cases e with
    | allow b' =>
      have hm : m.allow = none := he
      simp [put, hm, eq_comm]
    | deny => simp [put]

theorem deny_foldl_put {m : Members} {es : List Member} {names : List String} (h : m.Accepts es) :
    (es.foldl put m).deny = some names ↔ m.deny = some names ∨ .deny names ∈ es := by
  induction es generalizing m with
  | nil => simp
  | cons e es ih =>
    obtain ⟨he, hes⟩ := accepts_cons.mp h
    rw [List.foldl_cons, ih hes]
    cases e with
    | allow => simp [put]
    | deny names' =>
      have hm : m.deny = none := he
      simp [put, hm, eq_comm]

end Members

variable {m m' : Members}

theorem member_eq_ok_iff {key : String} :
    member m key ts = .ok (m', rest) ↔
      ∃ e : Member, e.key = key ∧ m.Lacks e ∧ ts = .colon :: (e.value ++ rest) ∧ m' = m.put e := by
  constructor
  · intro h
    unfold member at h
    split at h
    next hkey =>
      split at h
      · cases h
      next hlacks =>
        obtain ⟨after, hcolon, h⟩ := bind_eq_ok_iff.mp h
        obtain ⟨⟨b, rest'⟩, hread, h⟩ := bind_eq_ok_iff.mp h
        cases h
        refine ⟨.allow b, hkey.symm, by simpa [Members.Lacks] using hlacks, ?_, rfl⟩
        rw [afterColon_eq_ok_iff.mp hcolon, readBoolean_eq_ok_iff.mp hread]
        rfl
    · split at h
      next hkey =>
        split at h
        · cases h
        next hlacks =>
          obtain ⟨after, hcolon, h⟩ := bind_eq_ok_iff.mp h
          obtain ⟨⟨names, rest'⟩, hread, h⟩ := bind_eq_ok_iff.mp h
          cases h
          refine ⟨.deny names, hkey.symm, by simpa [Members.Lacks] using hlacks, ?_, rfl⟩
          rw [afterColon_eq_ok_iff.mp hcolon, readNames_eq_ok_iff.mp hread]
      · cases h
  · rintro ⟨e, rfl, hlacks, rfl, rfl⟩
    have hcolon : afterColon (.colon :: (e.value ++ rest)) = .ok (e.value ++ rest) :=
      afterColon_eq_ok_iff.mpr rfl
    cases e with
    | allow b =>
      have hnone : m.allow = none := hlacks
      have hread := readBoolean_eq_ok_iff.mpr (rfl : (Member.allow b).value ++ rest = _)
      simp [member, Member.key, hnone, hcolon, hread, Members.put, bind, Except.bind, pure,
        Except.pure]
    | deny names =>
      have hnone : m.deny = none := hlacks
      have hread := readNames_eq_ok_iff.mpr (rfl : (Member.deny names).value ++ rest = _)
      have hne : denyKey ≠ allowKey := by decide
      simp [member, Member.key, hnone, hcolon, hread, Members.put, hne, bind, Except.bind, pure,
        Except.pure]

theorem members_last {key : String} (h : member m key ts = .ok (m', .closeBrace :: rest)) :
    members m (.string key :: ts) = .ok (m', rest) := by
  rw [members]
  split
  next hp =>
    rw [h] at hp
    cases hp
  next hok =>
    cases h.symm.trans hok
    rfl

theorem members_more {key next : String}
    (h : member m key ts = .ok (m', .comma :: .string next :: rest)) :
    members m (.string key :: ts) = members m' (.string next :: rest) := by
  rw [members]
  split
  next hp =>
    rw [h] at hp
    cases hp
  next hok =>
    cases h.symm.trans hok
    rfl

theorem eq_of_members (h : members m ts = .ok (m', rest)) :
    ∃ e es, ts = separated (List.map Member.tokens (e :: es)) ++ .closeBrace :: rest ∧
      m.Accepts (e :: es) ∧ m' = (e :: es).foldl Members.put m := by
  fun_induction members m ts with
  | case3 m key after m' rest' hok =>
    cases h
    obtain ⟨e, rfl, hlacks, rfl, rfl⟩ := member_eq_ok_iff.mp hok
    have hnil : (m.put e).Accepts [] := ⟨List.nodup_nil, nofun⟩
    exact ⟨e, [], by simp [separated, Member.tokens], Members.accepts_cons.mpr ⟨hlacks, hnil⟩, rfl⟩
  | case6 m key after m' rest' _ _ _ _ hok ih =>
    obtain ⟨e, rfl, hlacks, rfl, rfl⟩ := member_eq_ok_iff.mp hok
    obtain ⟨e', es, rfl, haccepts, rfl⟩ := ih h
    refine ⟨e, e' :: es, ?_, Members.accepts_cons.mpr ⟨hlacks, haccepts⟩, rfl⟩
    simp [separated, Member.tokens]
  | _ => cases h

theorem members_listed {e : Member} {es : List Member} (h : m.Accepts (e :: es))
    (rest : List Token) :
    members m (separated (List.map Member.tokens (e :: es)) ++ .closeBrace :: rest) =
      .ok ((e :: es).foldl Members.put m, rest) := by
  induction es generalizing m e with
  | nil =>
    obtain ⟨he, -⟩ := Members.accepts_cons.mp h
    have hread : member m e.key (.colon :: (e.value ++ .closeBrace :: rest)) =
        .ok (m.put e, .closeBrace :: rest) := member_eq_ok_iff.mpr ⟨e, rfl, he, rfl, rfl⟩
    simpa [separated, Member.tokens] using members_last hread
  | cons e' es ih =>
    obtain ⟨he, hes⟩ := Members.accepts_cons.mp h
    have hrest := ih hes
    simp only [separated, List.map_cons, List.flatMap_cons, List.append_assoc, Member.tokens,
      List.cons_append] at hrest ⊢
    rw [members_more (member_eq_ok_iff.mpr ⟨e, rfl, he, rfl, rfl⟩), hrest]
    rfl

/-! ## Reading a document -/

theorem object_eq_ok_iff :
    object ts = .ok (m, rest) ↔ ∃ es : List Member, (es.map Member.key).Nodup ∧
      ts = separated (es.map Member.tokens) ++ .closeBrace :: rest ∧
      m = es.foldl Members.put {} := by
  constructor
  · intro h
    unfold object at h
    split at h
    · cases h
    · cases h
      exact ⟨[], List.nodup_nil, rfl, rfl⟩
    · obtain ⟨e, es, rfl, haccepts, rfl⟩ := eq_of_members h
      exact ⟨e :: es, haccepts.distinct, rfl, rfl⟩
  · rintro ⟨es, hdistinct, rfl, rfl⟩
    cases es with
    | nil => rfl
    | cons e es =>
      refine members_listed ⟨hdistinct, fun e' _ => ?_⟩ rest
      cases e' <;> rfl

/-- Fields by position. -/
theorem inOrder_iff {es : List Member} :
    es.map Member.key <+: [allowKey, denyKey] ↔
      es = [] ∨ (∃ b, es = [.allow b]) ∨ ∃ b names, es = [.allow b, .deny names] := by
  have hne : denyKey ≠ allowKey := by decide
  constructor
  · intro h
    match es with
    | [] => exact .inl rfl
    | [.allow b] => exact .inr (.inl ⟨b, rfl⟩)
    | [.allow b, .deny names] => exact .inr (.inr ⟨b, names, rfl⟩)
    | .deny _ :: _ | .allow _ :: .allow _ :: _ => simp [Member.key, hne, hne.symm] at h
    | .allow _ :: .deny _ :: _ :: _ => simp at h
  · rintro (rfl | ⟨b, rfl⟩ | ⟨b, names, rfl⟩)
    · exact List.nil_prefix
    · exact ⟨[denyKey], rfl⟩
    · exact List.prefix_refl _

theorem separated_values {b : Bool} {names : List String} :
    separated (List.map Member.value [.allow b, .deny names]) =
      .boolean b :: .comma :: (Member.deny names).value := by
  rw [List.map_cons, List.map_singleton, separated, List.flatMap_singleton]
  rfl

theorem endOfArray_eq_ok_iff :
    endOfArray m ts = .ok (m', rest) ↔ ts = .closeBracket :: rest ∧ m' = m := by
  unfold endOfArray
  split
  · simp
  · simp [and_comm, eq_comm]
  · simp
  next hne _ =>
    simp only [reduceCtorEq, false_iff]
    rintro ⟨rfl, -⟩
    exact hne rest rfl

theorem array_eq_ok_iff :
    array ts = .ok (m, rest) ↔ ∃ es : List Member, es.map Member.key <+: [allowKey, denyKey] ∧
      ts = separated (es.map Member.value) ++ .closeBracket :: rest ∧
      m = es.foldl Members.put {} := by
  constructor
  · intro h
    unfold array at h
    split at h
    · cases h
    · cases h
      exact ⟨[], List.nil_prefix, rfl, rfl⟩
    · obtain ⟨⟨b, after⟩, hflag, hrest⟩ := bind_eq_ok_iff.mp h
      obtain rfl := readBoolean_eq_ok_iff.mp hflag
      clear h
      dsimp only at hrest
      split at hrest
      · cases hrest
      · cases hrest
        exact ⟨[.allow b], inOrder_iff.mpr (.inr (.inl ⟨b, rfl⟩)), rfl, rfl⟩
      · cases hrest
      · obtain ⟨⟨names, after⟩, hnames, hend⟩ := bind_eq_ok_iff.mp hrest
        obtain rfl := readNames_eq_ok_iff.mp hnames
        obtain ⟨rfl, rfl⟩ := endOfArray_eq_ok_iff.mp hend
        refine ⟨[.allow b, .deny names], inOrder_iff.mpr (.inr (.inr ⟨b, names, rfl⟩)), ?_, rfl⟩
        rw [separated_values]
        simp
      · cases hrest
  · rintro ⟨es, horder, rfl, rfl⟩
    obtain rfl | ⟨b, rfl⟩ | ⟨b, names, rfl⟩ := inOrder_iff.mp horder
    · rfl
    · rfl
    · have hread : readNames ((Member.deny names).value ++ .closeBracket :: rest) =
          .ok (names, .closeBracket :: rest) := readNames_eq_ok_iff.mpr rfl
      rw [separated_values]
      refine bind_eq_ok_iff.mpr ⟨_, readBoolean_eq_ok_iff.mpr rfl, ?_⟩
      exact bind_eq_ok_iff.mpr ⟨_, hread, rfl⟩

theorem document_eq_ok_iff :
    document ts = .ok m ↔ ∃ d : Document, ts = d.tokens ∧ m = d.members.foldl Members.put {} := by
  have hfinish {m' : Members} {rest : List Token} :
      document.finish (m', rest) = .ok m ↔ rest = [] ∧ m' = m := by
    cases rest <;> simp [document.finish]
  constructor
  · intro h
    unfold document at h
    split at h
    next rest =>
      obtain ⟨⟨m', rest'⟩, hobject, h⟩ := bind_eq_ok_iff.mp h
      obtain ⟨rfl, rfl⟩ := hfinish.mp h
      obtain ⟨es, hdistinct, rfl, rfl⟩ := object_eq_ok_iff.mp hobject
      exact ⟨.object es hdistinct, rfl, rfl⟩
    next rest =>
      obtain ⟨⟨m', rest'⟩, harray, h⟩ := bind_eq_ok_iff.mp h
      obtain ⟨rfl, rfl⟩ := hfinish.mp h
      obtain ⟨es, horder, rfl, rfl⟩ := array_eq_ok_iff.mp harray
      exact ⟨.array es horder, rfl, rfl⟩
    · cases h
  · rintro ⟨d, rfl, rfl⟩
    cases d with
    | object es hdistinct =>
      exact bind_eq_ok_iff.mpr ⟨_, object_eq_ok_iff.mpr ⟨es, hdistinct, rfl, rfl⟩, rfl⟩
    | array es horder =>
      exact bind_eq_ok_iff.mpr ⟨_, array_eq_ok_iff.mpr ⟨es, horder, rfl, rfl⟩, rfl⟩

end

/-! ## The accepted texts -/

namespace Document

theorem accepts (d : Document) : Members.Accepts {} d.members := by
  refine ⟨?_, fun e _ => by cases e <;> rfl⟩
  cases d with
  | object _ hdistinct => exact hdistinct
  | array _ horder => exact horder.sublist.nodup (by decide)

/-- The configuration that the fields of a document give. -/
def config (d : Document) : Config := (d.members.foldl Members.put {}).toConfig

theorem allow_config {d : Document} :
    d.config.allowProcessControl = true ↔ .allow true ∈ d.members := by
  have hallow :
      (d.members.foldl Members.put {}).allow = some true ↔ .allow true ∈ d.members := by
    simp [Members.allow_foldl_put d.accepts]
  rw [← hallow]
  cases h : (d.members.foldl Members.put {}).allow <;> simp [config, Members.toConfig, h]

theorem mem_deny_config {d : Document} {name : String} : name ∈ d.config.deny ↔ d.Denies name := by
  have hdeny (names : List String) :
      (d.members.foldl Members.put {}).deny = some names ↔ .deny names ∈ d.members := by
    simp [Members.deny_foldl_put d.accepts]
  simp only [Denies, ← hdeny]
  cases h : (d.members.foldl Members.put {}).deny <;>
    simp [config, Members.toConfig, h, NameSet.mem_ofList]

theorem means_iff {d : Document} {c : Config} :
    d.Means c ↔ d.config = c ∧ c.Known := by
  constructor
  · intro h
    have hconfig : d.config = c := Config.ext (allow_config.trans h.allow.symm) fun name =>
      mem_deny_config.trans (h.deny name).symm
    exact ⟨hconfig, h.known⟩
  · rintro ⟨rfl, hknown⟩
    exact ⟨allow_config, fun _ => mem_deny_config, hknown⟩

theorem mem_separated {token : Token} {items : List (List Token)} (h : token ∈ separated items) :
    token = .comma ∨ ∃ item ∈ items, token ∈ item := by
  cases items with
  | nil => cases h
  | cons item items =>
    simp only [separated, List.mem_append, List.mem_flatMap, List.mem_cons] at h
    rcases h with h | ⟨other, hmem, rfl | h⟩
    · exact .inr ⟨item, by simp, h⟩
    · exact .inl rfl
    · exact .inr ⟨other, by simp [hmem], h⟩

theorem spells_value {e : Member} {token : Token} (h : token ∈ e.value) : ∃ t, token.Spells t := by
  cases e with
  | allow b =>
    obtain rfl := List.mem_singleton.mp h
    cases b
    · exact ⟨_, .isFalse⟩
    · exact ⟨_, .isTrue⟩
  | deny names =>
    simp only [Member.value, List.cons_append, List.mem_cons, List.mem_append] at h
    rcases h with rfl | h | rfl | h
    · exact ⟨_, .openBracket⟩
    · obtain rfl | ⟨item, hitem, htoken⟩ := mem_separated h
      · exact ⟨_, .comma⟩
      · obtain ⟨name, -, rfl⟩ := List.mem_map.mp hitem
        obtain rfl := List.mem_singleton.mp htoken
        exact ⟨_, Token.spells_written name⟩
    · exact ⟨_, .closeBracket⟩
    · cases h

theorem spells_tokens {d : Document} {token : Token} (h : token ∈ d.tokens) :
    ∃ t, token.Spells t := by
  cases d with
  | object es _ =>
    simp only [tokens, List.cons_append, List.mem_cons, List.mem_append] at h
    rcases h with rfl | h | rfl | h
    · exact ⟨_, .openBrace⟩
    · obtain rfl | ⟨item, hitem, htoken⟩ := mem_separated h
      · exact ⟨_, .comma⟩
      · obtain ⟨e, -, rfl⟩ := List.mem_map.mp hitem
        simp only [Member.tokens, List.mem_cons] at htoken
        rcases htoken with rfl | rfl | htoken
        · exact ⟨_, Token.spells_written e.key⟩
        · exact ⟨_, .colon⟩
        · exact spells_value htoken
    · exact ⟨_, .closeBrace⟩
    · cases h
  | array es _ =>
    simp only [tokens, List.cons_append, List.mem_cons, List.mem_append] at h
    rcases h with rfl | h | rfl | h
    · exact ⟨_, .openBracket⟩
    · obtain rfl | ⟨item, hitem, htoken⟩ := mem_separated h
      · exact ⟨_, .comma⟩
      · obtain ⟨e, -, rfl⟩ := List.mem_map.mp hitem
        exact spells_value htoken
    · exact ⟨_, .closeBracket⟩
    · cases h

end Document

theorem isNone_ofName? {name : String} :
    (Syscall.ofName? name).isNone = true ↔ ¬Syscall.IsName name := by
  simp only [Syscall.IsName, ← Syscall.ofName?_eq_some_iff, ← Option.isSome_iff_exists]
  cases Syscall.ofName? name <;> simp

theorem unknownName?_eq_none_iff {c : Config} : c.unknownName? = none ↔ c.Known := by
  simp only [unknownName?, List.find?_eq_none, isNone_ofName?, Classical.not_not]
  rfl

/-- The answer on a text that spells a document. -/
theorem ofJson_spelled {text : String} {d : Document} (h : Spelled d.tokens text.toList) :
    ofJson text =
      d.config.unknownName?.elim (.ok d.config) fun name => .error (.unknownName name) := by
  have hdocument := document_eq_ok_iff.mpr ⟨d, Json.tokens_of_spelled h, rfl⟩
  rw [ofJson, hdocument, Document.config]
  simp only [bind, Except.bind]
  cases (d.members.foldl Members.put {}).toConfig.unknownName? <;> rfl

theorem ofJson_eq_ok_of_spelled {text : String} {d : Document} {c : Config}
    (h : Spelled d.tokens text.toList) : ofJson text = .ok c ↔ d.Means c := by
  rw [ofJson_spelled h, Document.means_iff]
  cases hunknown : d.config.unknownName? with
  | none =>
    rw [Option.elim_none, Except.ok.injEq]
    refine ⟨?_, And.left⟩
    rintro rfl
    exact ⟨rfl, unknownName?_eq_none_iff.mp hunknown⟩
  | some name =>
    rw [Option.elim_some]
    simp only [reduceCtorEq, false_iff]
    rintro ⟨rfl, hknown⟩
    rw [unknownName?_eq_none_iff.mpr hknown] at hunknown
    cases hunknown

theorem ofJson_eq_ok_iff {text : String} {c : Config} :
    ofJson text = .ok c ↔ ∃ d : Document, Spelled d.tokens text.toList ∧ d.Means c := by
  constructor
  · intro h
    obtain ⟨m, hdocument, -⟩ := bind_eq_ok_iff.mp h
    obtain ⟨d, htokens, -⟩ := document_eq_ok_iff.mp hdocument
    have hspelled := Json.spelled_iff.mpr ⟨htokens, fun _ => Document.spells_tokens⟩
    exact ⟨d, hspelled, (ofJson_eq_ok_of_spelled hspelled).mp h⟩
  · rintro ⟨d, hspelled, hmeans⟩
    exact (ofJson_eq_ok_of_spelled hspelled).mpr hmeans

/-- A text is accepted exactly if it spells a document that denies syscalls only, and then as the
configuration the document describes. Texts of documents with the same flag and the same names are
read alike. No other tokens are accepted, and only a document that puts the flag up permits process
control. -/
theorem accepted_texts (text : String) :
    (∀ c, ofJson text = .ok c ↔ ∃ d : Document, Spelled d.tokens text.toList ∧ d.Means c) ∧
    (∀ (other : String) (d d' : Document), Spelled d.tokens text.toList →
      Spelled d'.tokens other.toList → (.allow true ∈ d.members ↔ .allow true ∈ d'.members) →
      (∀ name, d.Denies name ↔ d'.Denies name) → ofJson text = ofJson other) ∧
    (∀ ts, Spelled ts text.toList → (∀ d : Document, d.tokens ≠ ts) → ∃ p, ofJson text = .error p) ∧
    ∀ c, ofJson text = .ok c → (c.allowProcessControl = true ↔
      ∃ d : Document, Spelled d.tokens text.toList ∧ .allow true ∈ d.members) := by
  refine ⟨fun c => ofJson_eq_ok_iff, ?_, ?_, ?_⟩
  · intro other d d' hd hd' hallow hdeny
    have hconfig : d.config = d'.config := by
      apply Config.ext
      · rw [Document.allow_config, Document.allow_config, hallow]
      · intro name
        rw [Document.mem_deny_config, Document.mem_deny_config, hdeny]
    rw [ofJson_spelled hd, ofJson_spelled hd', hconfig]
  · intro ts hts hne
    cases h : ofJson text with
    | error p => exact ⟨p, rfl⟩
    | ok c =>
      obtain ⟨d, hd, -⟩ := ofJson_eq_ok_iff.mp h
      exact absurd ((Json.tokens_of_spelled hd).symm.trans (Json.tokens_of_spelled hts)) (hne d)
  · intro c h
    constructor
    · intro hflag
      obtain ⟨d, hd, hmeans⟩ := ofJson_eq_ok_iff.mp h
      exact ⟨d, hd, hmeans.allow.mp hflag⟩
    · rintro ⟨d, hd, hmem⟩
      exact ((ofJson_eq_ok_of_spelled hd).mp h).allow.mpr hmem

def shuffled : Document := .object [.deny ["fork", "exit"], .allow true] (by decide)

def positional : Document :=
  .array [.allow true, .deny ["exit", "fork", "exit"]] (inOrder_iff.mpr (.inr (.inr ⟨_, _, rfl⟩)))

def shuffledText : String :=
  "\x7b \"deny\" : [\"\\u0066ork\",\"exit\"],\n \"allow_process\\u005Fcontrol\" :true\x7d"

def positionalText : String := "[true, [\"exit\", \"fork\", \"e\\u0078it\"] ]"

theorem shuffled_spelled : Spelled shuffled.tokens shuffledText.toList :=
  Json.spelled_iff.mpr ⟨by decide +kernel, fun _ => Document.spells_tokens⟩

theorem positional_spelled : Spelled positional.tokens positionalText.toList :=
  Json.spelled_iff.mpr ⟨by decide +kernel, fun _ => Document.spells_tokens⟩

/-- The same fields by name and by position, and a value that no document has. -/
theorem respelled_text_accepted :
    ofJson shuffledText = .ok ⟨true, .ofList ["exit", "fork"]⟩ ∧
    ofJson shuffledText = ofJson positionalText ∧
    (∃ p, ofJson "[null]" = .error p) ∧
    ∃ d : Document, Spelled d.tokens positionalText.toList ∧ .allow true ∈ d.members := by
  have hmeans : shuffled.Means ⟨true, .ofList ["exit", "fork"]⟩ :=
    Document.means_iff.mpr ⟨by decide, unknownName?_eq_none_iff.mp (by decide)⟩
  have haccepted := ((accepted_texts shuffledText).1 _).mpr ⟨shuffled, shuffled_spelled, hmeans⟩
  have hallow : .allow true ∈ shuffled.members ↔ .allow true ∈ positional.members := by decide
  have hdeny (name : String) : shuffled.Denies name ↔ positional.Denies name := by
    simp only [Document.Denies, shuffled, positional, Document.members]
    grind
  have hsame := (accepted_texts shuffledText).2.1 positionalText shuffled positional
    shuffled_spelled positional_spelled hallow hdeny
  refine ⟨haccepted, hsame, ?_, ?_⟩
  · have hnil : Json.Blank [] := nofun
    have hnull : Spelled [.openBracket, .null, .closeBracket] "[null]".toList :=
      .cons hnil .openBracket (.cons hnil .null (.cons hnil .closeBracket (.nil hnil)))
    refine (accepted_texts "[null]").2.2.1 _ hnull ?_
    intro d hd
    cases d with
    | object es _ => cases hd
    | array es horder =>
      obtain rfl | ⟨b, rfl⟩ | ⟨b, names, rfl⟩ := inOrder_iff.mp horder
      · cases hd
      · cases hd
      · cases hd
  · exact ((accepted_texts positionalText).2.2.2 _ (hsame ▸ haccepted)).mp rfl

end Config
end GuestGate
