import GuestGate.Json.Number
import GuestGate.Json.Quoted

/-!
# JSON tokens

A text is a run of tokens with blanks between them. Where no token can be read the run ends in a
broken one that carries the problem, so a reader meets problems in the order of the text.
-/

namespace GuestGate.Json

inductive Token where
  | openBrace
  | closeBrace
  | openBracket
  | closeBracket
  | colon
  | comma
  | null
  | boolean (b : Bool)
  | number (n : Number)
  | string (s : String)
  | brokenString (p : Problem)
  | broken (p : Problem)
deriving DecidableEq, Repr

def isBlank (c : Char) : Bool := c == ' ' || c == '\t' || c == '\n' || c == '\r'

namespace Token

/-- The rest of a literal whose first letter is read. -/
def literal (token : Token) : List Char → List Char → Token × List Char
  | [], rest => (token, rest)
  | _ :: _, [] => (.broken .endInValue, [])
  | w :: word, c :: rest =>
    if c = w then literal token word rest else (.broken .expectedLiteral, rest)

def ofNumber : Except Problem (Number × List Char) → Token × List Char
  | .ok (n, rest) => (.number n, rest)
  | .error p => (.broken p, [])

def ofString : Except Problem (List Char × List Char) → Token × List Char
  | .ok (s, rest) => (.string (String.ofList s), rest)
  | .error p => (.brokenString p, [])

/-- The token that begins with a character that is no blank, and the text after it. -/
def next (c : Char) (rest : List Char) : Token × List Char :=
  match c with
  | '\x7b' => (.openBrace, rest)
  | '\x7d' => (.closeBrace, rest)
  | '[' => (.openBracket, rest)
  | ']' => (.closeBracket, rest)
  | ':' => (.colon, rest)
  | ',' => (.comma, rest)
  | 'n' => literal .null ['u', 'l', 'l'] rest
  | 't' => literal (.boolean true) ['r', 'u', 'e'] rest
  | 'f' => literal (.boolean false) ['a', 'l', 's', 'e'] rest
  | '"' => ofString (Quoted.read rest)
  | '-' => ofNumber (Number.readNegative rest)
  | c => if c.isDigit then ofNumber (Number.readFrom false c rest) else (.broken .expectedValue, [])

theorem length_literal (token : Token) (word rest : List Char) :
    (literal token word rest).2.length ≤ rest.length := by
  induction word generalizing rest with
  | nil => simp [literal]
  | cons w word ih =>
    cases rest with
    | nil => simp [literal]
    | cons c rest =>
      simp only [literal]
      split
      · exact Nat.le_succ_of_le (ih rest)
      · exact Nat.le_succ _

theorem length_ofNumber {x : Except Problem (Number × List Char)} {bound : Nat}
    (h : ∀ n rest, x = .ok (n, rest) → rest.length ≤ bound) : (ofNumber x).2.length ≤ bound := by
  cases x with
  | error => exact Nat.zero_le _
  | ok a => exact h a.1 a.2 rfl

theorem length_ofString {x : Except Problem (List Char × List Char)} {bound : Nat}
    (h : ∀ s rest, x = .ok (s, rest) → rest.length ≤ bound) : (ofString x).2.length ≤ bound := by
  cases x with
  | error => exact Nat.zero_le _
  | ok a => exact h a.1 a.2 rfl

theorem length_next (c : Char) (rest : List Char) : (next c rest).2.length ≤ rest.length := by
  unfold next
  split
  any_goals exact Nat.le_refl _
  any_goals exact length_literal _ _ _
  · exact length_ofString fun _ _ h => Nat.le_of_lt (Quoted.length_read h)
  · exact length_ofNumber fun _ _ h => Number.length_readNegative h
  · split
    · exact length_ofNumber fun _ _ h => Number.length_readFrom h
    · exact Nat.zero_le _

def isBroken : Token → Bool
  | .broken _ | .brokenString _ => true
  | _ => false

end Token

/-- The tokens of a text, up to and with the first broken one. -/
def tokens : List Char → List Token
  | [] => []
  | c :: rest =>
    if isBlank c then tokens rest
    else
      match h : Token.next c rest with
      | (token, after) =>
        have : after.length ≤ rest.length := by simpa [h] using Token.length_next c rest
        if token.isBroken then [token] else token :: tokens after
termination_by cs => cs.length

end GuestGate.Json
