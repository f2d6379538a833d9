import ExprLang.Span
import ExprLang.Token.Escape
import ExprLang.Token.Kind

set_option autoImplicit false

/-!
Tokens, and what a scan of a source yields: tokens, mixed with the places where no token could be
read. A token does not hold its text. That is read back from the source, where the span says; for
sources that are too long for the offsets of spans, this may be another text than the one that was
scanned.
-/

namespace ExprLang

/-- A piece of source text, by its kind and its place. -/
structure Token where
  kind : TokenKind
  span : Span
  deriving DecidableEq, Inhabited

/-- What reading on in a source finds next. -/
abbrev Item := Except (Located LexicalError) Token

namespace Token

/-- The mark that stands after the last byte of a source. -/
def endOfText (offset : Nat) : Token :=
  ⟨.eof, .ofRange offset offset⟩

/-- The text of the source at the place of the token; no text if the source has no such place. -/
def lexeme (t : Token) (source : String) : String :=
  (t.span.text? source).getD ""

/-- A line of a listing: kind, lexeme and, for literals, the value. -/
def listing (source : String) (t : Token) : String :=
  let lexeme := t.lexeme source
  match t.kind with
  | .eof => "EOF  null"
  | .int | .dec => s!"{t.kind.name} {lexeme} {lexeme}"
  | .string =>
    match StringLiteral.value lexeme with
    | .ok value => s!"STRING {lexeme} {value}"
    | .error _ => s!"STRING {lexeme} null"
  | kind => s!"{kind.name} {lexeme} null"

end Token

end ExprLang
