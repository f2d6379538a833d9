import ExprLang.Token.Basic

set_option autoImplicit false

/-!
Why a sequence of tokens is not a program.
-/

namespace ExprLang

inductive SyntaxError where
  | unexpectedToken (actual expected : TokenKind)
  | nonExpression (actual : TokenKind)
  | nonType (actual : TokenKind)
  | nonAssignmentOperator (actual : TokenKind)
  | nonDeclaration (actual : TokenKind)
  | unexpectedEof
  | invalidLiteral (lexeme : String)
  | tooDeep
  | lexical (error : LexicalError)
  deriving DecidableEq

namespace SyntaxError

def code : SyntaxError → String
  | unexpectedToken .. => "PA001"
  | nonExpression _ => "PA002"
  | nonType _ => "PA003"
  | nonAssignmentOperator _ => "PA004"
  | nonDeclaration _ => "PA005"
  | unexpectedEof => "PA006"
  | invalidLiteral _ => "PA007"
  | tooDeep => "PA008"
  | lexical error => error.code

def message : SyntaxError → String
  | unexpectedToken actual expected =>
    s!"Expected {expected.name} but got token {actual.name}."
  | nonExpression actual => s!"Expected an expression but got token {actual.name}."
  | nonType actual => s!"Expected a type but got token {actual.name}."
  | nonAssignmentOperator actual =>
    s!"Expected an assignment operator but got token {actual.name}."
  | nonDeclaration actual => s!"Expected a declaration but got token {actual.name}."
  | unexpectedEof => "Expected a non-EOF token."
  | invalidLiteral lexeme => s!"Invalid literal {lexeme}."
  | tooDeep => "Expression is nested too deeply."
  | lexical error => s!"Encountered a lexer error {error.message}."

end SyntaxError

end ExprLang
