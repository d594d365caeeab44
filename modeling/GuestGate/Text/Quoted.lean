import GuestGate.Text.Hex
import GuestGate.Text.Utf8
import GuestGate.Text.Visible

/-!
# Quoted text

Text between double quotes for reports and records, in which nothing but visible characters
appears. Strings of characters and strings of bytes differ in what they escape.
-/

namespace GuestGate.Quoted

def codePoint (c : Char) : List Char :=
  ['\\', 'u', '\x7b'] ++ Hex.natural c.toNat ++ ['\x7d']

def hexByte (b : UInt8) : List Char := '\\' :: 'x' :: Hex.byte b

/-- The escapes that both forms share. -/
def short? : Char → Option Char
  | '\x00' => some '0'
  | '\t' => some 't'
  | '\r' => some 'r'
  | '\n' => some 'n'
  | '"' => some '"'
  | '\\' => some '\\'
  | _ => none

def character (c : Char) : List Char :=
  match short? c with
  | some e => ['\\', e]
  | none => if Text.isVisible c then [c] else codePoint c

/-- In a byte string a single quote is escaped too, and invisible ASCII by its byte. -/
def unit : Utf8.Unit → List Char
  | .byte b => hexByte b
  | .character c =>
    if c = '\'' then ['\\', c]
    else
      match short? c with
      | some e => ['\\', e]
      | none =>
        if Text.isVisible c then [c]
        else if c.toNat < 0x80 then hexByte c.toNat.toUInt8
        else codePoint c

def text (s : String) : String :=
  String.ofList ('"' :: s.toList.flatMap character ++ ['"'])

def bytes (bs : List UInt8) : String :=
  String.ofList ('"' :: (Utf8.units bs).flatMap unit ++ ['"'])

end GuestGate.Quoted
