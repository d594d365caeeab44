import GuestGate.Text.Hex
import GuestGate.Json.Problem

/-!
# JSON strings

`Quoted.write` puts a string between quotes and escapes what JSON does not let stand. `Quoted.read`
takes the characters up to the closing quote; it accepts every escape, so one string has many
written forms.
-/

namespace GuestGate.Json.Quoted

def short? : Char → Option Char
  | '"' => some '"'
  | '\\' => some '\\'
  | '\x08' => some 'b'
  | '\x0c' => some 'f'
  | '\n' => some 'n'
  | '\r' => some 'r'
  | '\t' => some 't'
  | _ => none

def writeCharacter (c : Char) : List Char :=
  match short? c with
  | some e => ['\\', e]
  | none => if c.toNat < 0x20 then '\\' :: 'u' :: Hex.fixed 4 c.toNat else [c]

def write (s : List Char) : List Char := '"' :: s.flatMap writeCharacter ++ ['"']

def hexValue? (c : Char) : Option Nat :=
  if '0' ≤ c && c ≤ '9' then some (c.toNat - '0'.toNat)
  else if 'a' ≤ c && c ≤ 'f' then some (c.toNat - 'a'.toNat + 10)
  else if 'A' ≤ c && c ≤ 'F' then some (c.toNat - 'A'.toNat + 10)
  else none

/-- Why there are not four hexadecimal digits: a text with less than four bytes left ends in the
escape. -/
def quadProblem (cs : List Char) : Problem :=
  if (String.ofList (cs.take 4)).utf8ByteSize < 4 then .endInString else .invalidEscape

/-- Four hexadecimal digits. -/
def quad : List Char → Except Problem (Nat × List Char)
  | a :: b :: c :: d :: rest =>
    match hexValue? a, hexValue? b, hexValue? c, hexValue? d with
    | some i, some j, some k, some l => .ok (i * 4096 + j * 256 + k * 16 + l, rest)
    | _, _, _, _ => .error (quadProblem (a :: b :: c :: d :: rest))
  | cs => .error (quadProblem cs)

def isHighSurrogate (n : Nat) : Bool := 0xD800 ≤ n && n < 0xDC00

def isLowSurrogate (n : Nat) : Bool := 0xDC00 ≤ n && n < 0xE000

/-- What follows the mark of a hexadecimal escape. A character above the basic plane takes two
escapes, one for each surrogate. -/
def codeUnits (cs : List Char) : Except Problem (Char × List Char) :=
  match quad cs with
  | .error p => .error p
  | .ok (n, rest) =>
    if isLowSurrogate n then .error .loneSurrogate
    else if isHighSurrogate n then
      match rest with
      | [] | ['\\'] => .error .endInString
      | '\\' :: 'u' :: rest =>
        match quad rest with
        | .error p => .error p
        | .ok (m, rest) =>
          if isLowSurrogate m then
            .ok (Char.ofNat (0x10000 + (n - 0xD800) * 0x400 + (m - 0xDC00)), rest)
          else .error .loneSurrogate
      | _ => .error .unpairedSurrogate
    else .ok (Char.ofNat n, rest)

/-- The character that stands for itself or is named by a letter after the escape sign. -/
def named? : Char → Option Char
  | '"' => some '"'
  | '\\' => some '\\'
  | '/' => some '/'
  | 'b' => some '\x08'
  | 'f' => some '\x0c'
  | 'n' => some '\n'
  | 'r' => some '\r'
  | 't' => some '\t'
  | _ => none

/-- What follows an escape sign. -/
def escape : List Char → Except Problem (Char × List Char)
  | [] => .error .endInString
  | 'u' :: rest => codeUnits rest
  | c :: rest =>
    match named? c with
    | some d => .ok (d, rest)
    | none => .error .invalidEscape

theorem length_quad {cs rest : List Char} {n : Nat} (h : quad cs = .ok (n, rest)) :
    rest.length < cs.length := by
  unfold quad at h
  split at h
  · split at h <;> cases h
    simp only [List.length_cons]; omega
  · cases h

theorem length_codeUnits {cs rest : List Char} {c : Char} (h : codeUnits cs = .ok (c, rest)) :
    rest.length < cs.length := by
  unfold codeUnits at h
  split at h
  · cases h
  · rename_i n r hq
    have hr := length_quad hq
    split at h
    · cases h
    · split at h
      · split at h
        · cases h
        · cases h
        · split at h
          · cases h
          · rename_i hq'
            have := length_quad hq'
            simp only [List.length_cons] at hr
            split at h
            · simp only [Except.ok.injEq, Prod.mk.injEq] at h
              obtain ⟨-, rfl⟩ := h
              omega
            · cases h
        · cases h
      · cases h; exact hr

theorem length_escape {cs rest : List Char} {c : Char} (h : escape cs = .ok (c, rest)) :
    rest.length < cs.length := by
  unfold escape at h
  split at h
  · cases h
  · exact Nat.lt_succ_of_lt (length_codeUnits h)
  · split at h <;> cases h
    exact Nat.lt_succ_self _

/-- The string up to the closing quote, and what follows. -/
def read : List Char → Except Problem (List Char × List Char)
  | [] => .error .endInString
  | c :: rest =>
    if c = '"' then .ok ([], rest)
    else if c = '\\' then
      match h : escape rest with
      | .error p => .error p
      | .ok (d, rest') =>
        have := length_escape h
        (read rest').map fun (s, r) => (d :: s, r)
    else if c.toNat < 0x20 then .error .controlCharacter
    else (read rest).map fun (s, r) => (c :: s, r)
termination_by cs => cs.length

theorem length_read {cs rest s : List Char} (h : read cs = .ok (s, rest)) :
    rest.length < cs.length := by
  fun_induction read cs generalizing s rest with
  | case1 => cases h
  | case2 => cases h; exact Nat.lt_succ_self _
  | case3 => cases h
  | case4 cs _ d rest' hd hl ih =>
    obtain ⟨g, hg, he⟩ := ok_of_map h
    cases he
    have := ih hg
    simp only [List.length_cons]; omega
  | case5 => cases h
  | case6 c cs _ _ _ ih =>
    obtain ⟨g, hg, he⟩ := ok_of_map h
    cases he
    have := ih hg
    simp only [List.length_cons]; omega

end GuestGate.Json.Quoted
