set_option autoImplicit false

/-!
String literals: the escapes that may stand in one, and the text that it denotes.
-/

namespace ExprLang

/-- Why a text cannot be cut into tokens, or a literal has no value. -/
inductive LexicalError where
  | unrecognized (c : Char)
  | unclosedString
  | unknownEscape (c : Char)
  deriving DecidableEq

namespace LexicalError

def code : LexicalError → String
  | unrecognized _ => "LX001"
  | unclosedString => "LX002"
  | unknownEscape _ => "LX003"

def message : LexicalError → String
  | unrecognized c => s!"Unrecognized character {c}"
  | unclosedString => "Unterminated string literal"
  | unknownEscape c => s!"Unknown escape sequence \\{c}"

/-- The wording for listings of tokens. -/
def notice : LexicalError → String
  | unrecognized c => s!"Unexpected character: {c}"
  | unclosedString => "Unterminated string."
  | unknownEscape c => s!"Unknown escape sequence: \\{c}"

end LexicalError

namespace StringLiteral

/-- The character that a backslash and this letter stand for. -/
def escaped? : Char → Option Char
  | 'n' => some '\n'
  | 't' => some '\t'
  | 'r' => some '\r'
  | '0' => some '\x00'
  | '\\' => some '\\'
  | '"' => some '"'
  | _ => none

/-- Resolves the escapes in the text between the quotes of a literal. -/
def resolve : List Char → Except LexicalError (List Char)
  | [] => .ok []
  | '\\' :: [] => .error .unclosedString
  | '\\' :: letter :: rest =>
    match escaped? letter with
    | some c => (resolve rest).map (c :: ·)
    | none => .error (.unknownEscape letter)
  | c :: rest => (resolve rest).map (c :: ·)

/-- The text between the quotes of a literal; one quote alone does not count as both. -/
def inner? : List Char → Option (List Char)
  | '"' :: rest => if rest.getLast? = some '"' then some rest.dropLast else none
  | _ => none

/-- The text that a string literal denotes. -/
def value (lexeme : String) : Except LexicalError String :=
  match inner? lexeme.toList with
  | some body => (resolve body).map String.ofList
  | none => .error .unclosedString

end StringLiteral

end ExprLang
