import ExprLang.Text.Extender
import ExprLang.Text.Printable

set_option autoImplicit false

/-!
Quoted text. Between quotes, a character that would not show as itself is written with a
backslash, so that the quoted form is one line of visible characters.
-/

namespace ExprLang.Text

/-- Whether a character can stand for itself: it shows, and does not hang on its neighbour. -/
def isPlain (c : Char) : Bool :=
  isPrintable c && !isExtender c

/-- The escape that has a letter of its own for a character. -/
def shortEscape? : Char → Option Char
  | '\x00' => some '0'
  | '\t' => some 't'
  | '\n' => some 'n'
  | '\r' => some 'r'
  | '\\' => some '\\'
  | _ => none

/-- A character as it is written between two of the given quotes. -/
def escape (mark c : Char) : List Char :=
  match shortEscape? c with
  | some letter => ['\\', letter]
  | none =>
    if c = mark then ['\\', c]
    else if isPlain c then [c]
    else ['\\', 'u', '\x7b'] ++ Nat.toDigits 16 c.toNat ++ ['\x7d']

/-- A text between double quotes. -/
def quote (s : String) : String :=
  String.ofList ('"' :: s.toList.flatMap (escape '"') ++ ['"'])

/-- A character between single quotes. -/
def quoteChar (c : Char) : String :=
  String.ofList ('\x27' :: escape '\x27' c ++ ['\x27'])

end ExprLang.Text
