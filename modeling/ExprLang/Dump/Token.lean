import ExprLang.Dump.Basic
import ExprLang.Text.Quoted
import ExprLang.Token.Basic

set_option autoImplicit false

/-!
Dumps of tokens and of the trouble in reading them.
-/

namespace ExprLang

def Symbol.dump (s : Symbol) : Dump :=
  .word <| match s with
    | .leftBracket => "LeftBracket"
    | .rightBracket => "RightBracket"
    | .leftBrace => "LeftBrace"
    | .rightBrace => "RightBrace"
    | .leftParen => "LeftParenthesis"
    | .rightParen => "RightParenthesis"
    | .leftTriangle => "LeftTriangle"
    | .rightTriangle => "RightTriangle"
    | .plus => "Plus"
    | .minus => "Minus"
    | .star => "Star"
    | .slash => "Slash"
    | .percent => "Percent"
    | .plusEqual => "PlusEqual"
    | .minusEqual => "MinusEqual"
    | .starEqual => "StarEqual"
    | .slashEqual => "SlashEqual"
    | .percentEqual => "PercentEqual"
    | .equal => "Equal"
    | .greater => "GreaterThan"
    | .greaterEqual => "GreaterThanEqual"
    | .less => "LessThan"
    | .lessEqual => "LessThanEqual"
    | .comma => "Comma"
    | .colon => "Colon"
    | .semicolon => "Semicolon"
    | .underscore => "Underscore"

def Keyword.dump (k : Keyword) : Dump :=
  .word <| match k with
    | .true => "KeywordTrue"
    | .false => "KeywordFalse"
    | .var => "KeywordVar"
    | .const => "KeywordConst"
    | .set => "KeywordSet"
    | .is => "KeywordIs"
    | .for_ => "KeywordFor"
    | .break_ => "KeywordBreak"
    | .return_ => "KeywordReturn"
    | .func => "KeywordFunc"
    | .and => "KeywordAnd"
    | .or => "KeywordOr"
    | .not => "KeywordNot"
    | .if_ => "KeywordIf"
    | .then_ => "KeywordThen"
    | .else_ => "KeywordElse"
    | .none => "TypeNone"
    | .int => "TypeInt"
    | .dec => "TypeDec"
    | .str => "TypeStr"
    | .bool => "TypeBool"
    | .list => "TypeList"
    | .map => "TypeMap"

def TokenKind.dump : TokenKind → Dump
  | symbol s => s.dump
  | keyword k => k.dump
  | int => .word "IntLiteral"
  | dec => .word "DecLiteral"
  | string => .word "StringLiteral"
  | ident => .word "Ident"
  | eof => .word "Eof"

def Token.dump (t : Token) : Dump :=
  .record "Token" [("kind", t.kind.dump), ("span", t.span.dump)]

def LexicalError.dump : LexicalError → Dump
  | unrecognized c => .apply "Unrecognized" [.word (Text.quoteChar c)]
  | unclosedString => .word "UnclosedString"
  | unknownEscape c => .apply "UnknownEscape" [.word (Text.quoteChar c)]

/-- A cause with its place, under the name of the kind of trouble. -/
def Located.dump {ε : Type} (head : String) (cause : ε → Dump) (e : Located ε) : Dump :=
  .record head [("kind", cause e.cause), ("span", e.span.dump)]

end ExprLang
