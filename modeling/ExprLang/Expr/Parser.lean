import ExprLang.Expr.Error
import ExprLang.Expr.Literal
import ExprLang.Token.Scan

set_option autoImplicit false

/-!
Reading syntax trees from tokens. Operators are read by precedence climbing, everything else by the
first token. A result comes with a proof that tokens were used up, which is why reading ends.

Nesting is counted while reading and can be limited. An operand that fails leaves its level counted,
so on a parser that goes on after errors the limit only gets stricter.
-/

namespace ExprLang

/-- Where reading stands: the source, the items that are left and the mark after them, how deep the
current expression is nested, and how deep it may be. -/
structure Parser where
  source : String
  rest : List Item
  eof : Token
  depth : Nat
  limit : Option Nat

namespace Parser

/-- Starts to read a source, with a limit on nesting or without one. -/
def ofSourceWith (limit : Option Nat) (source : String) : Parser :=
  let stream := Stream.ofSource source
  ⟨source, stream.items, stream.eof, 0, limit⟩

/-- Starts to read a source. A block and each statement in it are separate levels to the parser,
hence twice the nesting. -/
def ofSource (source : String) : Parser :=
  ofSourceWith (some (2 * maxNesting)) source

/-- The number of items that are left. -/
def size (p : Parser) : Nat :=
  p.rest.length

/-- The text of a token, read back from the source. -/
def lexeme (p : Parser) (token : Token) : String :=
  token.lexeme p.source

/-- Trouble, and where it leaves the parser. -/
structure Failure where
  error : Located SyntaxError
  parser : Parser

/-- A result, and the parser after it with fewer than `bound` items left. -/
structure Parsed (bound : Nat) (α : Type) where
  value : α
  parser : Parser
  shorter : parser.size < bound

/-- What reading gives: a result, or trouble. -/
abbrev Attempt := Except Failure

namespace Parsed

variable {m n : Nat} {α β : Type}

def weaken (r : Parsed m α) (h : m ≤ n) : Parsed n α :=
  ⟨r.value, r.parser, Nat.lt_of_lt_of_le r.shorter h⟩

def map (f : α → β) (r : Parsed n α) : Parsed n β :=
  ⟨f r.value, r.parser, r.shorter⟩

end Parsed

/-- Fails here, at the given place. -/
def fail {α : Type} (p : Parser) (cause : SyntaxError) (span : Span) : Attempt α :=
  .error ⟨⟨cause, span⟩, p⟩

/-- One level further in. -/
def descend (p : Parser) : Parser :=
  { p with depth := p.depth + 1 }

/-- One level further out. -/
def ascend (p : Parser) : Parser :=
  { p with depth := p.depth - 1 }

def isTooDeep (p : Parser) : Bool :=
  match p.limit with
  | some limit => limit < p.depth
  | none => false

@[simp] theorem size_descend (p : Parser) : p.descend.size = p.size := rfl

@[simp] theorem size_ascend (p : Parser) : p.ascend.size = p.size := rfl

/-- The next token, which is not used up. -/
def peek (p : Parser) : Attempt Token :=
  match p.rest with
  | [] => .ok p.eof
  | .ok token :: _ => .ok token
  | .error e :: _ => p.fail (.lexical e.cause) e.span

/-- Uses up the next token; at the end of the text there is none. -/
def next (p : Parser) (atEnd : SyntaxError) : Attempt (Parsed p.size Token) :=
  match h : p.rest with
  | [] => p.fail atEnd p.eof.span
  | .error e :: rest => fail { p with rest } (.lexical e.cause) e.span
  | .ok token :: rest => .ok ⟨token, { p with rest }, by simp [size, h]⟩

/-- Uses up the next token, which has to be of the given kind. -/
def expect (p : Parser) (kind : TokenKind) : Attempt (Parsed p.size Token) := do
  let ⟨token, q, h⟩ ← p.next .unexpectedEof
  if token.kind = kind then .ok ⟨token, q, h⟩
  else q.fail (.unexpectedToken token.kind kind) token.span

/-- Uses up the next token if it is accepted; otherwise nothing happens. -/
def takeIf? {α : Type} (p : Parser) (accept : Token → Option α) :
    Attempt (Option (Parsed p.size α)) :=
  match h : p.rest with
  | [] => .ok none
  | .error e :: _ => p.fail (.lexical e.cause) e.span
  | .ok token :: rest =>
    match accept token with
    | some value => .ok (some ⟨value, { p with rest }, by simp [size, h]⟩)
    | none => .ok none

/-- Uses up the next token if it is of the given kind. -/
def eat? (p : Parser) (kind : TokenKind) : Attempt (Option (Parsed p.size Token)) :=
  p.takeIf? fun token => if token.kind = kind then some token else none

def expectIdent (p : Parser) : Attempt (Parsed p.size Ident) := do
  let ⟨token, q, h⟩ ← p.expect .ident
  .ok ⟨⟨p.lexeme token, token.span⟩, q, h⟩

/-- A type: a name, with the types it is applied to in brackets. -/
def typeExpr (p : Parser) : Attempt (Parsed p.size TypeExpr) := do
  let ⟨token, q, h⟩ ← p.next .unexpectedEof
  match token.kind with
  | .keyword .none => .ok ⟨.none token.span, q, h⟩
  | .keyword .int => .ok ⟨.int token.span, q, h⟩
  | .keyword .dec => .ok ⟨.dec token.span, q, h⟩
  | .keyword .str => .ok ⟨.str token.span, q, h⟩
  | .keyword .bool => .ok ⟨.bool token.span, q, h⟩
  | .keyword .list =>
    let ⟨_, q, h₁⟩ ← q.expect (.symbol .leftBracket)
    let ⟨element, q, h₂⟩ ← q.typeExpr
    let ⟨close, q, h₃⟩ ← q.expect (.symbol .rightBracket)
    .ok ⟨.list element (token.span.merge close.span), q, by omega⟩
  | .keyword .map =>
    let ⟨_, q, h₁⟩ ← q.expect (.symbol .leftBracket)
    let ⟨key, q, h₂⟩ ← q.typeExpr
    let ⟨_, q, h₃⟩ ← q.expect (.symbol .rightBracket)
    let ⟨value, q, h₄⟩ ← q.typeExpr
    .ok ⟨.map key value (token.span.merge value.span), q, by omega⟩
  | kind => q.fail (.nonType kind) token.span
termination_by p.size

/-- The operator that a token is between two operands. -/
def binaryOp? : TokenKind → Option BinaryOp
  | .symbol .plus => some .add
  | .symbol .minus => some .subtract
  | .symbol .star => some .multiply
  | .symbol .slash => some .divide
  | .symbol .percent => some .modulo
  | .symbol .equal => some .equal
  | .symbol .greater => some .greater
  | .symbol .less => some .less
  | .symbol .greaterEqual => some .greaterEqual
  | .symbol .lessEqual => some .lessEqual
  | .keyword .and => some .and
  | .keyword .or => some .or
  | .symbol .underscore => some .index
  | _ => none

/-- What an assignment does before it writes: nothing, or an operation on the old value. -/
def assignmentOp? : TokenKind → Option (Option BinaryOp)
  | .keyword .is => some none
  | .symbol .plusEqual => some (some .add)
  | .symbol .minusEqual => some (some .subtract)
  | .symbol .starEqual => some (some .multiply)
  | .symbol .slashEqual => some (some .divide)
  | .symbol .percentEqual => some (some .modulo)
  | _ => none

/-- Uses up an operator that binds its left operand with at least the given power. -/
def takeOperator? (p : Parser) (power : Nat) : Attempt (Option (Parsed p.size BinaryOp)) :=
  p.takeIf? fun token => (binaryOp? token.kind).filter (power ≤ ·.leftPower)

/-- The value that an assignment writes; `x op= e` stands for `x is x op e`. -/
def assignedValue (target : Ident) (op : Option BinaryOp) (value : Expr) : Expr :=
  match op with
  | none => value
  | some op =>
    .binary op (.name target target.span) value (target.span.merge value.span)

mutual

/-- A statement: a return, a break, or an expression. -/
def statement (p : Parser) : Attempt (Parsed p.size Expr) := do
  let exit? ← p.takeIf? fun token =>
    match token.kind with
    | .keyword .return_ => some (Exit.return_, token)
    | .keyword .break_ => some (Exit.break_, token)
    | _ => none
  match exit? with
  | some ⟨(kind, token), q, h⟩ =>
    let following ← q.peek
    match following.kind with
    | .symbol .semicolon | .symbol .rightBrace | .eof => .ok ⟨.exit kind none token.span, q, h⟩
    | _ =>
      let ⟨value, q, h'⟩ ← q.expression
      .ok ⟨.exit kind (some value) (token.span.merge value.span), q, by omega⟩
  | none => p.expression
termination_by p.size * 8 + 4

/-- An expression, one level further in. -/
def expression (p : Parser) : Attempt (Parsed p.size Expr) := do
  let first ← p.peek
  if p.descend.isTooDeep then p.descend.fail .tooDeep first.span
  else
    match p.descend.expressionFrom first.kind with
    | .ok ⟨e, q, h⟩ => .ok ⟨e, q.ascend, h⟩
    | .error failure => .error { failure with parser := failure.parser.ascend }
termination_by p.size * 8 + 3

/-- An expression whose first token is of the given kind. -/
def expressionFrom (p : Parser) (first : TokenKind) : Attempt (Parsed p.size Expr) :=
  match first with
  | .keyword .var | .keyword .const => do
    let ⟨d, q, h⟩ ← p.declaration
    .ok ⟨.declare d d.span, q, h⟩
  | .keyword .set => p.assignment
  | .keyword .if_ => do
    let ⟨(branches, span), q, h⟩ ← p.conditional
    .ok ⟨.cond branches span, q, h⟩
  | .keyword .for_ => p.loop
  | .symbol .leftBrace => do
    let ⟨body, q, h⟩ ← p.block
    .ok ⟨.block body body.span, q, h⟩
  | _ => p.operation 0
termination_by p.size * 8 + 2

/-- A block: statements in braces. -/
def block (p : Parser) : Attempt (Parsed p.size Block) := do
  let ⟨opening, q, h⟩ ← p.expect (.symbol .leftBrace)
  let ⟨(statements, closing), q, h'⟩ ← q.blockRest
  .ok ⟨.mk statements (opening.span.merge closing.span), q, by omega⟩
termination_by p.size * 8

/-- The statements of a block and its closing brace. Semicolons separate statements; there may be
more than needed, and the last statement needs none. -/
def blockRest (p : Parser) : Attempt (Parsed p.size (List Expr × Token)) := do
  let following ← p.peek
  match following.kind with
  | .symbol .rightBrace =>
    let ⟨closing, q, h⟩ ← p.expect (.symbol .rightBrace)
    .ok ⟨([], closing), q, h⟩
  | .symbol .semicolon =>
    let ⟨_, q, h⟩ ← p.expect (.symbol .semicolon)
    let ⟨rest, q, h'⟩ ← q.blockRest
    .ok ⟨rest, q, by omega⟩
  | .eof => p.fail .unexpectedEof following.span
  | _ =>
    let ⟨first, q, h⟩ ← p.statement
    match ← q.eat? (.symbol .semicolon) with
    | some ⟨_, q, h₁⟩ =>
      let ⟨(rest, closing), q, h₂⟩ ← q.blockRest
      .ok ⟨(first :: rest, closing), q, by omega⟩
    | none =>
      let ⟨closing, q, h₁⟩ ← q.expect (.symbol .rightBrace)
      .ok ⟨([first], closing), q, by omega⟩
termination_by p.size * 8 + 5

/-- A declaration of a variable or a constant. -/
def declaration (p : Parser) : Attempt (Parsed p.size Declaration) := do
  let ⟨keyword, q, h⟩ ← p.next (.nonDeclaration .eof)
  let binding ← match keyword.kind with
    | .keyword .var => .ok Binding.var
    | .keyword .const => .ok Binding.const
    | kind => q.fail (.nonDeclaration kind) keyword.span
  let ⟨name, q, h₁⟩ ← q.expectIdent
  let ⟨type, q, h₂⟩ ← q.typeExpr
  let ⟨_, q, h₃⟩ ← q.expect (.keyword .is)
  let ⟨value, q, h₄⟩ ← q.expression
  .ok ⟨.mk binding name type value (keyword.span.merge value.span), q, by omega⟩
termination_by p.size * 8

def assignment (p : Parser) : Attempt (Parsed p.size Expr) := do
  let ⟨keyword, q, h⟩ ← p.expect (.keyword .set)
  let ⟨target, q, h₁⟩ ← q.expectIdent
  let ⟨operator, q, h₂⟩ ← q.next (.nonAssignmentOperator .eof)
  match assignmentOp? operator.kind with
  | none => q.fail (.nonAssignmentOperator operator.kind) operator.span
  | some op =>
    let ⟨value, q, h₃⟩ ← q.expression
    .ok ⟨.assign target (assignedValue target op value) (keyword.span.merge value.span), q,
      by omega⟩
termination_by p.size * 8

/-- A conditional, with its span. -/
def conditional (p : Parser) : Attempt (Parsed p.size (Conditional × Span)) := do
  let ⟨keyword, q, h⟩ ← p.expect (.keyword .if_)
  let ⟨condition, q, h₁⟩ ← q.expression
  let ⟨_, q, h₂⟩ ← q.expect (.keyword .then_)
  let ⟨body, q, h₃⟩ ← q.block
  let span := keyword.span.merge body.span
  match ← q.eat? (.keyword .else_) with
  | none => .ok ⟨(.only condition body, span), q, by omega⟩
  | some ⟨_, q, h₄⟩ =>
    let following ← q.peek
    if following.kind = .keyword .if_ then
      let ⟨(next, nextSpan), q, h₅⟩ ← q.conditional
      .ok ⟨(.withElseIf condition body next nextSpan, span.merge nextSpan), q, by omega⟩
    else
      let ⟨otherwise, q, h₅⟩ ← q.block
      .ok ⟨(.withElse condition body otherwise, span.merge otherwise.span), q, by omega⟩
termination_by p.size * 8

/-- A loop: variables, and a block that is run again and again. -/
def loop (p : Parser) : Attempt (Parsed p.size Expr) := do
  let ⟨keyword, q, h⟩ ← p.expect (.keyword .for_)
  let ⟨vars, q, h₁⟩ ← q.declarations
  let ⟨body, q, h₂⟩ ← q.block
  .ok ⟨.loop vars body (keyword.span.merge body.span), q, by omega⟩
termination_by p.size * 8

/-- Declarations with commas between them. -/
def declarations (p : Parser) : Attempt (Parsed p.size (List Declaration)) := do
  let ⟨first, q, h⟩ ← p.declaration
  match ← q.eat? (.symbol .comma) with
  | none => .ok ⟨[first], q, h⟩
  | some ⟨_, q, h₁⟩ =>
    let ⟨others, q, h₂⟩ ← q.declarations
    .ok ⟨first :: others, q, by omega⟩
termination_by p.size * 8 + 1

/-- Operands joined by operators that bind with at least the given power, one level further in. -/
def operation (p : Parser) (power : Nat) : Attempt (Parsed p.size Expr) := do
  let first ← p.peek
  if p.descend.isTooDeep then p.descend.fail .tooDeep first.span
  else
    let ⟨lhs, q, h⟩ ← p.descend.operand
    have h : q.size < p.size := h
    let ⟨e, q, h'⟩ ← q.operationRest power lhs
    .ok ⟨e, q.ascend, by rw [size_ascend]; omega⟩
termination_by p.size * 8 + 1

/-- Joins what follows to an operand that has been read. -/
def operationRest (p : Parser) (power : Nat) (lhs : Expr) : Attempt (Parsed (p.size + 1) Expr) := do
  match ← p.takeOperator? power with
  | none => .ok ⟨lhs, p, Nat.lt_succ_self _⟩
  | some ⟨op, q, h⟩ =>
    let ⟨rhs, q, h₁⟩ ← q.operation op.rightPower
    let ⟨e, q, h₂⟩ ← q.operationRest power (.binary op lhs rhs (lhs.span.merge rhs.span))
    .ok ⟨e, q, by omega⟩
termination_by p.size * 8

/-- An operand: a literal, a name or a call, a list, a map, or an expression under a prefix
operator or in brackets. -/
def operand (p : Parser) : Attempt (Parsed p.size Expr) := do
  let ⟨token, q, h⟩ ← p.next .unexpectedEof
  match token.kind with
  | .int =>
    match Literal.int? (p.lexeme token) with
    | some n => .ok ⟨.literal (.int n) token.span, q, h⟩
    | none => q.fail (.invalidLiteral (p.lexeme token)) token.span
  | .dec =>
    match Literal.dec? (p.lexeme token) with
    | some d => .ok ⟨.literal (.dec d) token.span, q, h⟩
    | none => q.fail (.invalidLiteral (p.lexeme token)) token.span
  | .string =>
    match StringLiteral.value (p.lexeme token) with
    | .ok s => .ok ⟨.literal (.str s) token.span, q, h⟩
    | .error cause => q.fail (.lexical cause) token.span
  | .keyword .true => .ok ⟨.literal (.bool true) token.span, q, h⟩
  | .keyword .false => .ok ⟨.literal (.bool false) token.span, q, h⟩
  | .ident =>
    let ident : Ident := ⟨p.lexeme token, token.span⟩
    match ← q.eat? (.symbol .leftParen) with
    | none => .ok ⟨.name ident token.span, q, h⟩
    | some ⟨_, q, h₁⟩ =>
      let ⟨(arguments, closing), q, h₂⟩ ← q.expressions (.symbol .rightParen)
      .ok ⟨.call ident arguments (token.span.merge closing.span), q, by omega⟩
  | .symbol .leftBracket =>
    let ⟨(items, closing), q, h₁⟩ ← q.expressions (.symbol .rightBracket)
    .ok ⟨.list items (token.span.merge closing.span), q, by omega⟩
  | .symbol .leftTriangle =>
    let ⟨(entries, closing), q, h₁⟩ ← q.entries
    .ok ⟨.map entries (token.span.merge closing.span), q, by omega⟩
  | .symbol .minus =>
    let ⟨rhs, q, h₁⟩ ← q.operation UnaryOp.minus.power
    .ok ⟨.unary .minus rhs (token.span.merge rhs.span), q, by omega⟩
  | .keyword .not =>
    let ⟨rhs, q, h₁⟩ ← q.operation UnaryOp.not.power
    .ok ⟨.unary .not rhs (token.span.merge rhs.span), q, by omega⟩
  | .symbol .leftParen =>
    let ⟨inner, q, h₁⟩ ← q.expression
    let ⟨closing, q, h₂⟩ ← q.expect (.symbol .rightParen)
    .ok ⟨inner.withSpan (token.span.merge closing.span), q, by omega⟩
  | kind => q.fail (.nonExpression kind) token.span
termination_by p.size * 8

/-- Expressions with commas between them and perhaps one at the end, and the token that closes the
row. -/
def expressions (p : Parser) (closing : TokenKind) :
    Attempt (Parsed p.size (List Expr × Token)) := do
  match ← p.eat? closing with
  | some ⟨token, q, h⟩ => .ok ⟨([], token), q, h⟩
  | none =>
    let ⟨first, q, h⟩ ← p.expression
    match ← q.eat? (.symbol .comma) with
    | none =>
      let ⟨token, q, h₁⟩ ← q.expect closing
      .ok ⟨([first], token), q, by omega⟩
    | some ⟨_, q, h₁⟩ =>
      let ⟨(others, token), q, h₂⟩ ← q.expressions closing
      .ok ⟨(first :: others, token), q, by omega⟩
termination_by p.size * 8 + 4

/-- The entries of a map, in the same way, and the token that closes it. -/
def entries (p : Parser) : Attempt (Parsed p.size (List (Expr × Expr) × Token)) := do
  match ← p.eat? (.symbol .rightTriangle) with
  | some ⟨token, q, h⟩ => .ok ⟨([], token), q, h⟩
  | none =>
    let ⟨key, q, h⟩ ← p.expression
    let ⟨_, q, h₁⟩ ← q.expect (.symbol .colon)
    let ⟨value, q, h₂⟩ ← q.expression
    match ← q.eat? (.symbol .comma) with
    | none =>
      let ⟨token, q, h₃⟩ ← q.expect (.symbol .rightTriangle)
      .ok ⟨([(key, value)], token), q, by omega⟩
    | some ⟨_, q, h₃⟩ =>
      let ⟨(others, token), q, h₄⟩ ← q.entries
      .ok ⟨((key, value) :: others, token), q, by omega⟩
termination_by p.size * 8 + 4

end

/-- A program: statements, each with a semicolon after it, up to the end of the text. -/
def program (p : Parser) : Attempt (Parsed (p.size + 1) Program) := do
  let following ← p.peek
  match following.kind with
  | .eof => .ok ⟨[], p, Nat.lt_succ_self _⟩
  | .symbol .semicolon =>
    let ⟨_, q, h⟩ ← p.expect (.symbol .semicolon)
    let ⟨rest, q, h'⟩ ← q.program
    .ok ⟨rest, q, by omega⟩
  | _ =>
    let ⟨first, q, h⟩ ← p.statement
    let ⟨_, q, h₁⟩ ← q.expect (.symbol .semicolon)
    let ⟨rest, q, h₂⟩ ← q.program
    .ok ⟨first :: rest, q, by omega⟩
termination_by p.size

end Parser

/-- The program that a source is. -/
def Program.parse (source : String) : Except (Located SyntaxError) Program :=
  match (Parser.ofSource source).program with
  | .ok parsed => .ok parsed.value
  | .error failure => .error failure.error

end ExprLang
