set_option autoImplicit false

/-!
The kinds of tokens: symbols and keywords, which have one spelling each, and the classes of tokens
whose text varies.
-/

namespace ExprLang

/-- Punctuation and operators. -/
inductive Symbol where
  | leftBracket | rightBracket | leftBrace | rightBrace | leftParen | rightParen | leftTriangle
  | rightTriangle | plus | minus | star | slash | percent | plusEqual | minusEqual | starEqual
  | slashEqual | percentEqual | equal | greater | greaterEqual | less | lessEqual | comma
  | colon | semicolon | underscore
  deriving DecidableEq, Inhabited

namespace Symbol

def spelling : Symbol → String
  | .leftBracket => "["
  | .rightBracket => "]"
  | .leftBrace => "\x7b"
  | .rightBrace => "\x7d"
  | .leftParen => "("
  | .rightParen => ")"
  | .leftTriangle => "<|"
  | .rightTriangle => "|>"
  | .plus => "+"
  | .minus => "-"
  | .star => "*"
  | .slash => "/"
  | .percent => "%"
  | .plusEqual => "+="
  | .minusEqual => "-="
  | .starEqual => "*="
  | .slashEqual => "/="
  | .percentEqual => "%="
  | .equal => "="
  | .greater => ">"
  | .greaterEqual => ">="
  | .less => "<"
  | .lessEqual => "<="
  | .comma => ","
  | .colon => ":"
  | .semicolon => ";"
  | .underscore => "_"

/-- The name of the symbol in listings and messages. -/
def name : Symbol → String
  | .leftBracket => "LEFT_BRACKET"
  | .rightBracket => "RIGHT_BRACKET"
  | .leftBrace => "LEFT_BRACE"
  | .rightBrace => "RIGHT_BRACE"
  | .leftParen => "LEFT_PAREN"
  | .rightParen => "RIGHT_PAREN"
  | .leftTriangle => "LEFT_TRIANGLE"
  | .rightTriangle => "RIGHT_TRIANGLE"
  | .plus => "PLUS"
  | .minus => "MINUS"
  | .star => "STAR"
  | .slash => "SLASH"
  | .percent => "PERCENT"
  | .plusEqual => "PLUS_EQUAL"
  | .minusEqual => "MINUS_EQUAL"
  | .starEqual => "STAR_EQUAL"
  | .slashEqual => "SLASH_EQUAL"
  | .percentEqual => "PERCENT_EQUAL"
  | .equal => "EQUAL"
  | .greater => "GREATER"
  | .greaterEqual => "GREATER_EQUAL"
  | .less => "LESS"
  | .lessEqual => "LESS_EQUAL"
  | .comma => "COMMA"
  | .colon => "COLON"
  | .semicolon => "SEMICOLON"
  | .underscore => "UNDERSCORE"

/-- Every symbol; one that begins another one comes after it. -/
def all : List Symbol :=
  [.leftTriangle, .rightTriangle, .plusEqual, .minusEqual, .starEqual, .slashEqual,
   .percentEqual, .greaterEqual, .lessEqual, .leftBracket, .rightBracket, .leftBrace,
   .rightBrace, .leftParen, .rightParen, .plus, .minus, .star, .slash, .percent, .equal,
   .greater, .less, .comma, .colon, .semicolon, .underscore]

theorem spelling_length_pos (s : Symbol) : 0 < s.spelling.toList.length := by
  cases s <;> decide

end Symbol

/-- Reserved words. -/
inductive Keyword where
  | true | false | var | const | set | is | for_ | break_ | return_ | func | and | or | not
  | if_ | then_ | else_ | none | int | dec | str | bool | list | map
  deriving DecidableEq, Inhabited

namespace Keyword

def spelling : Keyword → String
  | .true => "true"
  | .false => "false"
  | .var => "var"
  | .const => "const"
  | .set => "set"
  | .is => "is"
  | .for_ => "for"
  | .break_ => "break"
  | .return_ => "return"
  | .func => "func"
  | .and => "and"
  | .or => "or"
  | .not => "not"
  | .if_ => "if"
  | .then_ => "then"
  | .else_ => "else"
  | .none => "none"
  | .int => "int"
  | .dec => "dec"
  | .str => "str"
  | .bool => "bool"
  | .list => "list"
  | .map => "map"

/-- The name of the keyword in listings and messages. -/
def name : Keyword → String
  | .true => "TRUE"
  | .false => "FALSE"
  | .var => "VAR"
  | .const => "CONST"
  | .set => "SET"
  | .is => "IS"
  | .for_ => "FOR"
  | .break_ => "BREAK"
  | .return_ => "RETURN"
  | .func => "FUNC"
  | .and => "AND"
  | .or => "OR"
  | .not => "NOT"
  | .if_ => "IF"
  | .then_ => "THEN"
  | .else_ => "ELSE"
  | .none => "NONE"
  | .int => "INT_TYPE"
  | .dec => "DEC_TYPE"
  | .str => "STR_TYPE"
  | .bool => "BOOL_TYPE"
  | .list => "LIST_TYPE"
  | .map => "MAP_TYPE"

def all : List Keyword :=
  [.true, .false, .var, .const, .set, .is, .for_, .break_, .return_, .func, .and, .or, .not,
   .if_, .then_, .else_, .none, .int, .dec, .str, .bool, .list, .map]

/-- The keyword that a word is, if it is reserved. -/
def ofWord? (word : String) : Option Keyword :=
  all.find? (·.spelling = word)

end Keyword

inductive TokenKind where
  | symbol (s : Symbol)
  | keyword (k : Keyword)
  | int
  | dec
  | string
  | ident
  | eof
  deriving DecidableEq, Inhabited

namespace TokenKind

/-- The text of a token of this kind, if there is only one. -/
def spelling? : TokenKind → Option String
  | symbol s => some s.spelling
  | keyword k => some k.spelling
  | int | dec | string | ident | eof => none

/-- The name of the kind in listings and messages. -/
def name : TokenKind → String
  | symbol s => s.name
  | keyword k => k.name
  | int => "INT"
  | dec => "DEC"
  | string => "STRING"
  | ident => "IDENTIFIER"
  | eof => "EOF"

end TokenKind

end ExprLang
