import Idl.Text.Visible

/-!
# Quoted text

A quoted text stands between double quotes. Inside it some characters are a backslash and a
letter, and others that are not visible are their code point in hexadecimal.
-/

namespace Idl.Text

/-- What stands after a backslash for a character that has an escape of two characters. -/
def escapeLetter? : Char → Option Char
  | '"' => some '"'
  | '\\' => some '\\'
  | '\x00' => some '0'
  | '\t' => some 't'
  | '\n' => some 'n'
  | '\r' => some 'r'
  | _ => none

def escape (c : Char) : List Char :=
  match escapeLetter? c with
  | some letter => ['\\', letter]
  | none =>
    if isVisible c then [c]
    else ['\\', 'u', '\x7b'] ++ Nat.toDigits 16 c.toNat ++ ['\x7d']

def escaped (s : List Char) : List Char := s.flatMap escape

def quoted (s : String) : String := String.ofList ('"' :: escaped s.toList ++ ['"'])

end Idl.Text
