import GuestGate.Config
import GuestGate.Config.Problem
import GuestGate.Json.Token

/-!
# Configurations as JSON

`Config.toJson` writes both fields in order without blanks. `Config.ofJson` reads an object whose
members come in any order and may be left out, or an array with the fields by position, and then
refuses denied names that are no syscalls. Of several problems the first in the text is reported.
-/

namespace GuestGate.Config

open Json (Token)

/-! ## Writing -/

def namesText : List String → List Char
  | [] => []
  | [name] => Json.Quoted.write name.toList
  | name :: rest => Json.Quoted.write name.toList ++ ',' :: namesText rest

def toJson (c : Config) : String :=
  String.ofList <|
    '\x7b' :: Json.Quoted.write allowKey.toList ++
      ':' :: (if c.allowProcessControl then "true" else "false").toList ++
      ',' :: Json.Quoted.write denyKey.toList ++
      ':' :: '[' :: namesText c.deny.names ++ [']', '\x7d']

/-! ## Reading -/

def found : Token → Except Json.Problem Found
  | .null => .ok .null
  | .boolean b => .ok (.boolean b)
  | .number n => .ok (.number n)
  | .string s => .ok (.string s)
  | .openBracket => .ok .sequence
  | .openBrace => .ok .map
  | .broken p | .brokenString p => .error p
  | _ => .error .expectedValue

/-- The problem of a place whose tokens do not begin as expected. -/
def misplaced (expected : Expected) : List Token → Problem
  | [] => .text .endInValue
  | token :: _ =>
    match found token with
    | .ok f => .misplaced f expected
    | .error p => .text p

def readBoolean : List Token → Except Problem (Bool × List Token)
  | .boolean b :: rest => .ok (b, rest)
  | tokens => .error (misplaced .boolean tokens)

/-- The names after the first one, and the closing bracket. -/
def moreNames : List Token → Except Problem (List String × List Token)
  | [] => .error (.text .endInList)
  | .closeBracket :: rest => .ok ([], rest)
  | .comma :: .closeBracket :: _ => .error (.text .trailingComma)
  | .comma :: .string name :: rest =>
    (moreNames rest).map fun (names, rest) => (name :: names, rest)
  | .comma :: rest => .error (misplaced .string rest)
  | _ => .error (.text .expectedCommaOrBracket)

def readNames : List Token → Except Problem (List String × List Token)
  | [.openBracket] => .error (.text .endInList)
  | .openBracket :: .closeBracket :: rest => .ok ([], rest)
  | .openBracket :: .string name :: rest =>
    (moreNames rest).map fun (names, rest) => (name :: names, rest)
  | .openBracket :: rest => .error (misplaced .string rest)
  | tokens => .error (misplaced .sequence tokens)

/-- The fields read so far. -/
structure Members where
  allow : Option Bool := none
  deny : Option (List String) := none
deriving DecidableEq, Repr

namespace Members

def toConfig (m : Members) : Config := ⟨m.allow.getD false, .ofList (m.deny.getD [])⟩

/-- The number of fields that may still come. -/
def missing (m : Members) : Nat := m.allow.elim 1 (fun _ => 0) + m.deny.elim 1 (fun _ => 0)

end Members

def afterColon : List Token → Except Problem (List Token)
  | [] => .error (.text .endInObject)
  | .colon :: rest => .ok rest
  | _ => .error (.text .expectedColon)

/-- Reads a member whose key is taken off. -/
def member (m : Members) (key : String) (tokens : List Token) :
    Except Problem (Members × List Token) :=
  if key = allowKey then
    if m.allow.isSome then .error (.duplicateField key)
    else do
      let (allow, rest) ← readBoolean (← afterColon tokens)
      return ({ m with allow := some allow }, rest)
  else if key = denyKey then
    if m.deny.isSome then .error (.duplicateField key)
    else do
      let (deny, rest) ← readNames (← afterColon tokens)
      return ({ m with deny := some deny }, rest)
  else .error (.unknownField key)

theorem missing_member {m m' : Members} {key : String} {tokens rest : List Token}
    (h : member m key tokens = .ok (m', rest)) : m'.missing < m.missing := by
  unfold member at h
  split at h
  · split at h
    · cases h
    next hn =>
      cases hc : afterColon tokens with
      | error => simp [hc, bind, Except.bind] at h
      | ok after =>
        cases hb : readBoolean after with
        | error => simp [hc, hb, bind, Except.bind] at h
        | ok pair =>
          simp [hc, hb, bind, Except.bind, pure, Except.pure] at h
          obtain ⟨rfl, -⟩ := h
          simp at hn
          simp [Members.missing, hn]
  · split at h
    · split at h
      · cases h
      next hn =>
        cases hc : afterColon tokens with
        | error => simp [hc, bind, Except.bind] at h
        | ok after =>
          cases hb : readNames after with
          | error => simp [hc, hb, bind, Except.bind] at h
          | ok pair =>
            simp [hc, hb, bind, Except.bind, pure, Except.pure] at h
            obtain ⟨rfl, -⟩ := h
            simp at hn
            simp [Members.missing, hn]
    · cases h

/-- Reads members from a key on, and the closing brace. -/
def members (m : Members) : List Token → Except Problem (Members × List Token)
  | .string key :: rest =>
    match h : member m key rest with
    | .error p => .error p
    | .ok (m', after) =>
      match after with
      | [] => .error (.text .endInObject)
      | .closeBrace :: rest => .ok (m', rest)
      | [.comma] => .error (.text .endInValue)
      | .comma :: .closeBrace :: _ => .error (.text .trailingComma)
      | .comma :: rest =>
        have := missing_member h
        members m' rest
      | _ => .error (.text .expectedCommaOrBrace)
  | .brokenString p :: _ => .error (.text p)
  | _ => .error (.text .keyNotString)
termination_by m.missing

/-- Reads an object whose brace is taken off. -/
def object : List Token → Except Problem (Members × List Token)
  | [] => .error (.text .endInObject)
  | .closeBrace :: rest => .ok ({}, rest)
  | tokens => members {} tokens

/-- Reads what follows the second field in an array. -/
def endOfArray (m : Members) : List Token → Except Problem (Members × List Token)
  | [] => .error (.text .endInList)
  | .closeBracket :: rest => .ok (m, rest)
  | .comma :: .closeBracket :: _ => .error (.text .trailingComma)
  | _ => .error (.text .trailingCharacters)

/-- Reads an array whose bracket is taken off. -/
def array : List Token → Except Problem (Members × List Token)
  | [] => .error (.text .endInList)
  | .closeBracket :: rest => .ok ({}, rest)
  | tokens => do
    let (allow, rest) ← readBoolean tokens
    match rest with
    | [] => .error (.text .endInList)
    | .closeBracket :: rest => .ok ({ allow := some allow }, rest)
    | .comma :: .closeBracket :: _ => .error (.text .trailingComma)
    | .comma :: rest => do
      let (deny, rest) ← readNames rest
      endOfArray { allow := some allow, deny := some deny } rest
    | _ => .error (.text .expectedCommaOrBracket)

/-- Reads the whole text. -/
def document : List Token → Except Problem Members
  | .openBrace :: rest => object rest >>= finish
  | .openBracket :: rest => array rest >>= finish
  | tokens => .error (misplaced .config tokens)
where
  finish : Members × List Token → Except Problem Members
    | (m, []) => .ok m
    | _ => .error (.text .trailingCharacters)

/-- The first denied name that is no syscall. -/
def unknownName? (c : Config) : Option String :=
  c.deny.names.find? fun name => (Syscall.ofName? name).isNone

def ofJson (text : String) : Except Problem Config := do
  let config := (← document (Json.tokens text.toList)).toConfig
  match config.unknownName? with
  | some name => .error (.unknownName name)
  | none => .ok config

end GuestGate.Config
