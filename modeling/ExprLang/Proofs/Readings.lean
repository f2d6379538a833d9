import ExprLang.Proofs.RoundTrip.Attempt

set_option autoImplicit false

/-!
What the parser does when it succeeds, rule by rule. From each function of the parser there is one
rule for every way to a result, which says what is read in which order and what is made of it. What
holds of everything that is read can be shown by induction on the rules; the parser itself is
followed here, once.
-/

namespace ExprLang

/-- What is read, by the function that reads it. -/
inductive Reading where
  | type (t : TypeExpr)
  | statement (e : Expr)
  | expression (e : Expr)
  /-- An expression, inside of the level that is counted for it. -/
  | inner (e : Expr)
  | block (b : Block)
  | blockRest (statements : List Expr) (closing : Token)
  | declaration (d : Declaration)
  | declarations (ds : List Declaration)
  | conditional (c : Conditional) (span : Span)
  | operation (e : Expr)
  /-- What an operand has become when all that follows is joined to it. -/
  | operationRest (lhs e : Expr)
  | operand (e : Expr)
  | row (closing : TokenKind) (es : List Expr) (token : Token)
  | entries (es : List (Expr × Expr)) (token : Token)
  | program (p : Program)

namespace Parser

/-- From `p` to `q` a token of the kind is used up, and nothing else happens. -/
structure Passes (p : Parser) (kind : TokenKind) (token : Token) (q : Parser) : Prop where
  first : p.rest = .ok token :: q.rest
  same : q = { p with rest := q.rest }
  kind : token.kind = kind

/-- From `p` the parser gets to `q` by the given reading. -/
inductive Reaches : Parser → Reading → Parser → Prop where
  -- Types.
  | noneType {p q : Parser} {token : Token} (name : p.Passes (.keyword .none) token q) :
    Reaches p (.type (.none token.span)) q
  | intType {p q : Parser} {token : Token} (name : p.Passes (.keyword .int) token q) :
    Reaches p (.type (.int token.span)) q
  | decType {p q : Parser} {token : Token} (name : p.Passes (.keyword .dec) token q) :
    Reaches p (.type (.dec token.span)) q
  | strType {p q : Parser} {token : Token} (name : p.Passes (.keyword .str) token q) :
    Reaches p (.type (.str token.span)) q
  | boolType {p q : Parser} {token : Token} (name : p.Passes (.keyword .bool) token q) :
    Reaches p (.type (.bool token.span)) q
  | listType {p p₁ p₂ p₃ q : Parser} {name opening closing : Token} {element : TypeExpr}
    (first : p.Passes (.keyword .list) name p₁)
    (second : p₁.Passes (.symbol .leftBracket) opening p₂) (inside : Reaches p₂ (.type element) p₃)
    (last : p₃.Passes (.symbol .rightBracket) closing q) :
    Reaches p (.type (.list element (name.span.merge closing.span))) q
  | mapType {p p₁ p₂ p₃ p₄ q : Parser} {name opening closing : Token} {key value : TypeExpr}
    (first : p.Passes (.keyword .map) name p₁)
    (second : p₁.Passes (.symbol .leftBracket) opening p₂) (inside : Reaches p₂ (.type key) p₃)
    (third : p₃.Passes (.symbol .rightBracket) closing p₄) (last : Reaches p₄ (.type value) q) :
    Reaches p (.type (.map key value (name.span.merge value.span))) q
  -- Statements.
  | exit {p q : Parser} {kind : Exit} {token : Token}
    (word : p.Passes (.keyword kind.reserved) token q) :
    Reaches p (.statement (.exit kind none token.span)) q
  | exitWith {p p₁ q : Parser} {kind : Exit} {token : Token} {value : Expr}
    (word : p.Passes (.keyword kind.reserved) token p₁) (last : Reaches p₁ (.expression value) q) :
    Reaches p (.statement (.exit kind (some value) (token.span.merge value.span))) q
  | evaluated {p q : Parser} {e : Expr} (value : Reaches p (.expression e) q) :
    Reaches p (.statement e) q
  -- Expressions.
  | nested {p q : Parser} {e : Expr} (fits : ¬ p.descend.isTooDeep = true)
    (inside : Reaches p.descend (.inner e) q) : Reaches p (.expression e) q.ascend
  | declared {p q : Parser} {d : Declaration} (declaration : Reaches p (.declaration d) q) :
    Reaches p (.inner (.declare d d.span)) q
  | assigned {p p₁ p₂ p₃ q : Parser} {kind : TokenKind} {keyword target operator : Token}
    {op : Option BinaryOp} {value : Expr} (word : p.Passes (.keyword .set) keyword p₁)
    (name : p₁.Passes .ident target p₂) (sign : p₂.Passes kind operator p₃)
    (known : assignmentOp? kind = some op) (last : Reaches p₃ (.expression value) q) :
    Reaches p (.inner (.assign ⟨p₁.lexeme target, target.span⟩
      (assignedValue ⟨p₁.lexeme target, target.span⟩ op value)
      (keyword.span.merge value.span))) q
  | branched {p q : Parser} {c : Conditional} {span : Span}
    (branches : Reaches p (.conditional c span) q) : Reaches p (.inner (.cond c span)) q
  | looped {p p₁ p₂ q : Parser} {keyword : Token} {vars : List Declaration} {body : Block}
    (word : p.Passes (.keyword .for_) keyword p₁) (header : Reaches p₁ (.declarations vars) p₂)
    (last : Reaches p₂ (.block body) q) :
    Reaches p (.inner (.loop vars body (keyword.span.merge body.span))) q
  | grouped {p q : Parser} {b : Block} (body : Reaches p (.block b) q) :
    Reaches p (.inner (.block b b.span)) q
  | tested {p q : Parser} {e : Expr} (test : Reaches p (.operation e) q) : Reaches p (.inner e) q
  -- Blocks.
  | block {p p₁ q : Parser} {opening closing : Token} {statements : List Expr}
    (first : p.Passes (.symbol .leftBrace) opening p₁)
    (rest : Reaches p₁ (.blockRest statements closing) q) :
    Reaches p (.block (.mk statements (opening.span.merge closing.span))) q
  | blockEnd {p q : Parser} {closing : Token} (last : p.Passes (.symbol .rightBrace) closing q) :
    Reaches p (.blockRest [] closing) q
  | blockSkip {p p₁ q : Parser} {semicolon closing : Token} {statements : List Expr}
    (skipped : p.Passes (.symbol .semicolon) semicolon p₁)
    (rest : Reaches p₁ (.blockRest statements closing) q) :
    Reaches p (.blockRest statements closing) q
  | blockLast {p p₁ q : Parser} {statement : Expr} {closing : Token}
    (first : Reaches p (.statement statement) p₁)
    (last : p₁.Passes (.symbol .rightBrace) closing q) :
    Reaches p (.blockRest [statement] closing) q
  | blockMore {p p₁ p₂ q : Parser} {statement : Expr} {statements : List Expr}
    {semicolon closing : Token} (first : Reaches p (.statement statement) p₁)
    (passed : p₁.Passes (.symbol .semicolon) semicolon p₂)
    (rest : Reaches p₂ (.blockRest statements closing) q) :
    Reaches p (.blockRest (statement :: statements) closing) q
  -- Declarations.
  | declaration {p p₁ p₂ p₃ p₄ q : Parser} {binding : Binding} {keyword name is : Token}
    {type : TypeExpr} {value : Expr} (word : p.Passes (.keyword binding.keyword) keyword p₁)
    (named : p₁.Passes .ident name p₂) (typed : Reaches p₂ (.type type) p₃)
    (sign : p₃.Passes (.keyword .is) is p₄) (last : Reaches p₄ (.expression value) q) :
    Reaches p (.declaration (.mk binding ⟨p₁.lexeme name, name.span⟩ type value
      (keyword.span.merge value.span))) q
  | lastDeclaration {p q : Parser} {d : Declaration} (first : Reaches p (.declaration d) q) :
    Reaches p (.declarations [d]) q
  | moreDeclarations {p p₁ p₂ q : Parser} {d : Declaration} {ds : List Declaration} {comma : Token}
    (first : Reaches p (.declaration d) p₁) (passed : p₁.Passes (.symbol .comma) comma p₂)
    (others : Reaches p₂ (.declarations ds) q) : Reaches p (.declarations (d :: ds)) q
  -- Conditionals.
  | only {p p₁ p₂ p₃ q : Parser} {keyword then_ : Token} {condition : Expr} {body : Block}
    (word : p.Passes (.keyword .if_) keyword p₁) (test : Reaches p₁ (.expression condition) p₂)
    (passed : p₂.Passes (.keyword .then_) then_ p₃) (last : Reaches p₃ (.block body) q) :
    Reaches p (.conditional (.only condition body) (keyword.span.merge body.span)) q
  | withElseIf {p p₁ p₂ p₃ p₄ p₅ q : Parser} {keyword then_ else_ : Token} {condition : Expr}
    {body : Block} {next : Conditional} {nextSpan : Span}
    (word : p.Passes (.keyword .if_) keyword p₁) (test : Reaches p₁ (.expression condition) p₂)
    (passed : p₂.Passes (.keyword .then_) then_ p₃) (yes : Reaches p₃ (.block body) p₄)
    (passed' : p₄.Passes (.keyword .else_) else_ p₅)
    (last : Reaches p₅ (.conditional next nextSpan) q) :
    Reaches p (.conditional (.withElseIf condition body next nextSpan)
      ((keyword.span.merge body.span).merge nextSpan)) q
  | withElse {p p₁ p₂ p₃ p₄ p₅ q : Parser} {keyword then_ else_ : Token} {condition : Expr}
    {body otherwise : Block}
    (word : p.Passes (.keyword .if_) keyword p₁) (test : Reaches p₁ (.expression condition) p₂)
    (passed : p₂.Passes (.keyword .then_) then_ p₃) (yes : Reaches p₃ (.block body) p₄)
    (passed' : p₄.Passes (.keyword .else_) else_ p₅) (last : Reaches p₅ (.block otherwise) q) :
    Reaches p (.conditional (.withElse condition body otherwise)
      ((keyword.span.merge body.span).merge otherwise.span)) q
  -- Operations.
  | operation {p p₁ q : Parser} {lhs e : Expr} (fits : ¬ p.descend.isTooDeep = true)
    (first : Reaches p.descend (.operand lhs) p₁) (rest : Reaches p₁ (.operationRest lhs e) q) :
    Reaches p (.operation e) q.ascend
  | operationEnd {p : Parser} {lhs : Expr} : Reaches p (.operationRest lhs lhs) p
  | operationMore {p p₁ p₂ q : Parser} {kind : TokenKind} {operator : Token} {op : BinaryOp}
    {lhs rhs e : Expr} (sign : p.Passes kind operator p₁) (known : binaryOp? kind = some op)
    (second : Reaches p₁ (.operation rhs) p₂)
    (rest : Reaches p₂ (.operationRest (.binary op lhs rhs (lhs.span.merge rhs.span)) e) q) :
    Reaches p (.operationRest lhs e) q
  -- Operands.
  | int {p q : Parser} {token : Token} {n : Int} (first : p.Passes .int token q)
    (value : Literal.int? (p.lexeme token) = some n) :
    Reaches p (.operand (.literal (.int n) token.span)) q
  | dec {p q : Parser} {token : Token} {d : Decimal} (first : p.Passes .dec token q)
    (value : Literal.dec? (p.lexeme token) = some d) :
    Reaches p (.operand (.literal (.dec d) token.span)) q
  | string {p q : Parser} {token : Token} {s : String} (first : p.Passes .string token q)
    (value : StringLiteral.value (p.lexeme token) = .ok s) :
    Reaches p (.operand (.literal (.str s) token.span)) q
  | true {p q : Parser} {token : Token} (first : p.Passes (.keyword .true) token q) :
    Reaches p (.operand (.literal (.bool .true) token.span)) q
  | false {p q : Parser} {token : Token} (first : p.Passes (.keyword .false) token q) :
    Reaches p (.operand (.literal (.bool .false) token.span)) q
  | name {p q : Parser} {token : Token} (first : p.Passes .ident token q) :
    Reaches p (.operand (.name ⟨p.lexeme token, token.span⟩ token.span)) q
  | call {p p₁ p₂ q : Parser} {token opening closing : Token} {arguments : List Expr}
    (first : p.Passes .ident token p₁) (second : p₁.Passes (.symbol .leftParen) opening p₂)
    (rest : Reaches p₂ (.row (.symbol .rightParen) arguments closing) q) :
    Reaches p (.operand (.call ⟨p.lexeme token, token.span⟩ arguments
      (token.span.merge closing.span))) q
  | list {p p₁ q : Parser} {opening closing : Token} {items : List Expr}
    (first : p.Passes (.symbol .leftBracket) opening p₁)
    (rest : Reaches p₁ (.row (.symbol .rightBracket) items closing) q) :
    Reaches p (.operand (.list items (opening.span.merge closing.span))) q
  | map {p p₁ q : Parser} {opening closing : Token} {entries : List (Expr × Expr)}
    (first : p.Passes (.symbol .leftTriangle) opening p₁)
    (rest : Reaches p₁ (.entries entries closing) q) :
    Reaches p (.operand (.map entries (opening.span.merge closing.span))) q
  | unary {p p₁ q : Parser} {op : UnaryOp} {token : Token} {rhs : Expr}
    (sign : p.Passes op.word.1 token p₁) (last : Reaches p₁ (.operation rhs) q) :
    Reaches p (.operand (.unary op rhs (token.span.merge rhs.span))) q
  | bracket {p p₁ p₂ q : Parser} {opening closing : Token} {e : Expr}
    (first : p.Passes (.symbol .leftParen) opening p₁) (inside : Reaches p₁ (.expression e) p₂)
    (last : p₂.Passes (.symbol .rightParen) closing q) :
    Reaches p (.operand (e.withSpan (opening.span.merge closing.span))) q
  -- Rows.
  | rowEnd {p q : Parser} {closing : TokenKind} {token : Token} (last : p.Passes closing token q) :
    Reaches p (.row closing [] token) q
  | rowLast {p p₁ q : Parser} {closing : TokenKind} {e : Expr} {token : Token}
    (first : Reaches p (.expression e) p₁) (last : p₁.Passes closing token q) :
    Reaches p (.row closing [e] token) q
  | rowMore {p p₁ p₂ q : Parser} {closing : TokenKind} {e : Expr} {es : List Expr}
    {comma token : Token} (first : Reaches p (.expression e) p₁)
    (passed : p₁.Passes (.symbol .comma) comma p₂) (others : Reaches p₂ (.row closing es token) q) :
    Reaches p (.row closing (e :: es) token) q
  | entriesEnd {p q : Parser} {token : Token} (last : p.Passes (.symbol .rightTriangle) token q) :
    Reaches p (.entries [] token) q
  | entriesLast {p p₁ p₂ p₃ q : Parser} {key value : Expr} {colon token : Token}
    (first : Reaches p (.expression key) p₁) (sign : p₁.Passes (.symbol .colon) colon p₂)
    (second : Reaches p₂ (.expression value) p₃)
    (last : p₃.Passes (.symbol .rightTriangle) token q) :
    Reaches p (.entries [(key, value)] token) q
  | entriesMore {p p₁ p₂ p₃ p₄ q : Parser} {key value : Expr} {es : List (Expr × Expr)}
    {colon comma token : Token} (first : Reaches p (.expression key) p₁)
    (sign : p₁.Passes (.symbol .colon) colon p₂) (second : Reaches p₂ (.expression value) p₃)
    (passed : p₃.Passes (.symbol .comma) comma p₄) (others : Reaches p₄ (.entries es token) q) :
    Reaches p (.entries ((key, value) :: es) token) q
  -- Programs.
  | programEnd {p : Parser} {token : Token} (seen : p.peek = .ok token)
    (kind : token.kind = .eof) : Reaches p (.program []) p
  | programSkip {p p₁ q : Parser} {semicolon : Token} {statements : Program}
    (skipped : p.Passes (.symbol .semicolon) semicolon p₁)
    (rest : Reaches p₁ (.program statements) q) : Reaches p (.program statements) q
  | programMore {p p₁ p₂ q : Parser} {statement : Expr} {semicolon : Token} {statements : Program}
    (first : Reaches p (.statement statement) p₁)
    (passed : p₁.Passes (.symbol .semicolon) semicolon p₂)
    (rest : Reaches p₂ (.program statements) q) : Reaches p (.program (statement :: statements)) q

/-! ### Single tokens -/

variable {α β : Type} {n : Nat}

theorem next_passes (p : Parser) (atEnd : SyntaxError) :
    Finds (p.next atEnd) fun r => p.Passes r.value.kind r.value r.parser := by
  unfold next
  split
  next => trivial
  next => trivial
  next token rest eq => exact ⟨eq, rfl, rfl⟩

theorem expect_passes (p : Parser) (kind : TokenKind) :
    Finds (p.expect kind) fun r => p.Passes kind r.value r.parser := by
  refine (next_passes p _).bind ?_
  rintro ⟨token, q, h⟩ passes
  dsimp only
  split
  next eq => exact { passes with kind := eq }
  next => trivial

theorem takeIf_passes (p : Parser) (accept : Token → Option α) :
    Finds (p.takeIf? accept) fun found =>
      ∀ r ∈ found, ∃ token, accept token = some r.value ∧ p.Passes token.kind token r.parser := by
  unfold takeIf?
  split
  next => rintro r ⟨⟩
  next => trivial
  next token rest eq =>
    split
    next value accepted =>
      rintro _ ⟨⟩
      exact ⟨token, accepted, eq, rfl, rfl⟩
    next => rintro r ⟨⟩

/-- Whether a token of the kind is used up or not. -/
theorem eat_bind {p : Parser} {kind : TokenKind} {f : Option (Parsed p.size Token) → Attempt β}
    {good : β → Prop} (absent : Finds (f none) good)
    (found : ∀ token q h, p.Passes kind token q → Finds (f (some ⟨token, q, h⟩)) good) :
    Finds (p.eat? kind >>= f) good := by
  refine Yields.bind (takeIf_passes p _) fun eaten each => ?_
  cases eaten with
  | none => exact absent
  | some eaten =>
    obtain ⟨value, q, h⟩ := eaten
    obtain ⟨token, accepted, passes⟩ := each _ rfl
    split at accepted
    next eq =>
      cases accepted
      exact found _ q h { passes with kind := eq }
    next => cases accepted

/-- A name has the text of its token. -/
theorem expectIdent_bind {p : Parser} {f : Parsed p.size Ident → Attempt β} {good : β → Prop}
    (rest : ∀ token q h, p.Passes .ident token q →
      Finds (f ⟨⟨p.lexeme token, token.span⟩, q, h⟩) good) :
    Finds (p.expectIdent >>= f) good := by
  unfold expectIdent
  rw [bind_assoc]
  refine (expect_passes p .ident).bind ?_
  rintro ⟨token, q, h⟩ passes
  exact rest token q h passes

/-! ### The parser, function by function -/

/-- If there is a result, the parser has got to it by the rules. -/
abbrev Arises (p : Parser) (reading : α → Reading) (a : Attempt (Parsed n α)) : Prop :=
  Finds a fun r => p.Reaches (reading r.value) r.parser

theorem typeExpr_arises (p : Parser) : p.Arises .type p.typeExpr := by
  rw [typeExpr]
  refine (next_passes p _).bind ?_
  rintro ⟨token, q, h⟩ name
  dsimp only at name ⊢
  split
  case h_1 kind => exact .noneType { name with kind }
  case h_2 kind => exact .intType { name with kind }
  case h_3 kind => exact .decType { name with kind }
  case h_4 kind => exact .strType { name with kind }
  case h_5 kind => exact .boolType { name with kind }
  case h_6 kind =>
    refine (expect_passes q _).bind ?_
    rintro ⟨_, q, _⟩ opening
    refine (typeExpr_arises q).bind ?_
    rintro ⟨_, q, _⟩ element
    refine (expect_passes q _).bind ?_
    rintro ⟨_, q, _⟩ closing
    exact .listType { name with kind } opening element closing
  case h_7 kind =>
    refine (expect_passes q _).bind ?_
    rintro ⟨_, q, _⟩ opening
    refine (typeExpr_arises q).bind ?_
    rintro ⟨_, q, _⟩ key
    refine (expect_passes q _).bind ?_
    rintro ⟨_, q, _⟩ closing
    refine (typeExpr_arises q).bind ?_
    rintro ⟨_, q, _⟩ value
    exact .mapType { name with kind } opening key closing value
  case h_8 => trivial
termination_by p.size

mutual

theorem statement_arises (p : Parser) : p.Arises .statement p.statement := by
  rw [statement]
  refine (takeIf_passes p _).bind fun found each => ?_
  cases found with
  | none => exact (expression_arises p).imp fun _ value => .evaluated value
  | some found =>
    obtain ⟨⟨kind, token⟩, q, h⟩ := found
    obtain ⟨first, accepted, passes⟩ := each _ rfl
    have word : p.Passes (.keyword kind.reserved) token q := by
      split at accepted
      next eq => cases accepted; exact { passes with kind := eq }
      next eq => cases accepted; exact { passes with kind := eq }
      next => cases accepted
    refine finds_bind fun following _ => ?_
    dsimp only
    split
    case h_4 =>
      refine (expression_arises q).bind ?_
      rintro ⟨_, q, _⟩ value
      exact .exitWith word value
    all_goals exact .exit word
termination_by p.size * 8 + 4

theorem expression_arises (p : Parser) : p.Arises .expression p.expression := by
  rw [expression]
  refine finds_bind fun first _ => ?_
  split
  next => trivial
  next fits =>
    have inside := expressionFrom_arises p.descend first.kind
    cases eq : p.descend.expressionFrom first.kind with
    | ok parsed =>
      rw [eq] at inside
      exact .nested fits inside
    | error failure => trivial
termination_by p.size * 8 + 3

theorem expressionFrom_arises (p : Parser) (first : TokenKind) :
    p.Arises .inner (p.expressionFrom first) := by
  rw [expressionFrom.eq_def]
  split
  case h_1 | h_2 =>
    refine (declaration_arises p).bind ?_
    rintro ⟨_, q, _⟩ declaration
    exact .declared declaration
  case h_3 => exact assignment_arises p
  case h_4 =>
    refine (conditional_arises p).bind ?_
    rintro ⟨_, q, _⟩ branches
    exact .branched branches
  case h_5 => exact loop_arises p
  case h_6 =>
    refine (block_arises p).bind ?_
    rintro ⟨_, q, _⟩ body
    exact .grouped body
  case h_7 => exact (operation_arises p 0).imp fun _ test => .tested test
termination_by p.size * 8 + 2

theorem block_arises (p : Parser) : p.Arises .block p.block := by
  rw [block]
  refine (expect_passes p _).bind ?_
  rintro ⟨_, q, _⟩ opening
  refine (blockRest_arises q).bind ?_
  rintro ⟨_, q, _⟩ rest
  exact .block opening rest
termination_by p.size * 8

theorem blockRest_arises (p : Parser) : p.Arises (fun r => .blockRest r.1 r.2) p.blockRest := by
  rw [blockRest]
  refine finds_bind fun following _ => ?_
  split
  next =>
    refine (expect_passes p _).bind ?_
    rintro ⟨_, q, _⟩ closing
    exact .blockEnd closing
  next =>
    refine (expect_passes p _).bind ?_
    rintro ⟨_, q, _⟩ skipped
    refine (blockRest_arises q).bind ?_
    rintro ⟨_, q, _⟩ rest
    exact .blockSkip skipped rest
  next => trivial
  next =>
    refine (statement_arises p).bind ?_
    rintro ⟨_, q, _⟩ first
    refine eat_bind ?_ fun _ q _ semicolon => ?_
    · refine (expect_passes q _).bind ?_
      rintro ⟨_, q, _⟩ closing
      exact .blockLast first closing
    · refine (blockRest_arises q).bind ?_
      rintro ⟨_, q, _⟩ rest
      exact .blockMore first semicolon rest
termination_by p.size * 8 + 5

theorem declaration_arises (p : Parser) : p.Arises .declaration p.declaration := by
  rw [declaration]
  refine (next_passes p _).bind ?_
  rintro ⟨keyword, q, _⟩ passes
  dsimp only at passes ⊢
  split
  case h_3 => trivial
  case h_1 kind =>
    refine expectIdent_bind fun _ q _ name => ?_
    refine (typeExpr_arises q).bind ?_
    rintro ⟨_, q, _⟩ type
    refine (expect_passes q _).bind ?_
    rintro ⟨_, q, _⟩ is
    refine (expression_arises q).bind ?_
    rintro ⟨_, q, _⟩ value
    exact .declaration { passes with kind } name type is value
  case h_2 kind =>
    refine expectIdent_bind fun _ q _ name => ?_
    refine (typeExpr_arises q).bind ?_
    rintro ⟨_, q, _⟩ type
    refine (expect_passes q _).bind ?_
    rintro ⟨_, q, _⟩ is
    refine (expression_arises q).bind ?_
    rintro ⟨_, q, _⟩ value
    exact .declaration { passes with kind } name type is value
termination_by p.size * 8

theorem assignment_arises (p : Parser) : p.Arises .inner p.assignment := by
  rw [assignment]
  refine (expect_passes p _).bind ?_
  rintro ⟨_, q, _⟩ word
  refine expectIdent_bind fun _ q _ target => ?_
  refine (next_passes q _).bind ?_
  rintro ⟨operator, q, _⟩ sign
  dsimp only at sign ⊢
  split
  next => trivial
  next op known =>
    refine (expression_arises q).bind ?_
    rintro ⟨_, q, _⟩ value
    exact .assigned word target sign known value
termination_by p.size * 8

theorem conditional_arises (p : Parser) :
    p.Arises (fun r => .conditional r.1 r.2) p.conditional := by
  rw [conditional]
  refine (expect_passes p _).bind ?_
  rintro ⟨_, q, _⟩ word
  refine (expression_arises q).bind ?_
  rintro ⟨_, q, _⟩ condition
  refine (expect_passes q _).bind ?_
  rintro ⟨_, q, _⟩ then_
  refine (block_arises q).bind ?_
  rintro ⟨_, q, _⟩ body
  refine eat_bind ?_ fun _ q _ else_ => ?_
  · exact .only word condition then_ body
  · refine finds_bind fun following _ => ?_
    dsimp only
    split
    next =>
      refine (conditional_arises q).bind ?_
      rintro ⟨_, q, _⟩ next
      exact .withElseIf word condition then_ body else_ next
    next =>
      refine (block_arises q).bind ?_
      rintro ⟨_, q, _⟩ otherwise
      exact .withElse word condition then_ body else_ otherwise
termination_by p.size * 8

theorem loop_arises (p : Parser) : p.Arises .inner p.loop := by
  rw [loop]
  refine (expect_passes p _).bind ?_
  rintro ⟨_, q, _⟩ word
  refine (declarations_arises q).bind ?_
  rintro ⟨_, q, _⟩ vars
  refine (block_arises q).bind ?_
  rintro ⟨_, q, _⟩ body
  exact .looped word vars body
termination_by p.size * 8

theorem declarations_arises (p : Parser) : p.Arises .declarations p.declarations := by
  rw [declarations]
  refine (declaration_arises p).bind ?_
  rintro ⟨_, q, _⟩ first
  refine eat_bind ?_ fun _ q _ comma => ?_
  · exact .lastDeclaration first
  · refine (declarations_arises q).bind ?_
    rintro ⟨_, q, _⟩ others
    exact .moreDeclarations first comma others
termination_by p.size * 8 + 1

theorem operation_arises (p : Parser) (power : Nat) : p.Arises .operation (p.operation power) := by
  rw [operation]
  refine finds_bind fun first _ => ?_
  split
  next => trivial
  next fits =>
    refine (operand_arises p.descend).bind ?_
    rintro ⟨lhs, q, shorter⟩ first
    have shorter : q.size < p.size := shorter
    refine (operationRest_arises q power lhs).bind ?_
    rintro ⟨_, q, _⟩ rest
    exact .operation fits first rest
termination_by p.size * 8 + 1

theorem operationRest_arises (p : Parser) (power : Nat) (lhs : Expr) :
    p.Arises (.operationRest lhs) (p.operationRest power lhs) := by
  rw [operationRest]
  refine (takeIf_passes p _).bind fun found each => ?_
  cases found with
  | none => exact .operationEnd
  | some found =>
    obtain ⟨op, q, _⟩ := found
    obtain ⟨token, accepted, sign⟩ := each _ rfl
    refine (operation_arises q _).bind ?_
    rintro ⟨_, q, _⟩ rhs
    refine (operationRest_arises q power _).bind ?_
    rintro ⟨_, q, _⟩ rest
    exact .operationMore sign (Option.filter_eq_some_iff.1 accepted).1 rhs rest
termination_by p.size * 8

theorem operand_arises (p : Parser) : p.Arises .operand p.operand := by
  rw [operand]
  refine (next_passes p _).bind ?_
  rintro ⟨token, q, _⟩ first
  dsimp only at first ⊢
  split
  case h_1 kind =>
    split
    next value => exact .int { first with kind } value
    next => trivial
  case h_2 kind =>
    split
    next value => exact .dec { first with kind } value
    next => trivial
  case h_3 kind =>
    split
    next value => exact .string { first with kind } value
    next => trivial
  case h_4 kind => exact .true { first with kind }
  case h_5 kind => exact .false { first with kind }
  case h_6 kind =>
    refine eat_bind ?_ fun _ q _ opening => ?_
    · exact .name { first with kind }
    · refine (expressions_arises q _).bind ?_
      rintro ⟨_, q, _⟩ arguments
      exact .call { first with kind } opening arguments
  case h_7 kind =>
    refine (expressions_arises q _).bind ?_
    rintro ⟨_, q, _⟩ items
    exact .list { first with kind } items
  case h_8 kind =>
    refine (entries_arises q).bind ?_
    rintro ⟨_, q, _⟩ entries
    exact .map { first with kind } entries
  case h_9 kind =>
    refine (operation_arises q _).bind ?_
    rintro ⟨_, q, _⟩ rhs
    exact .unary { first with kind } rhs
  case h_10 kind =>
    refine (operation_arises q _).bind ?_
    rintro ⟨_, q, _⟩ rhs
    exact .unary { first with kind } rhs
  case h_11 kind =>
    refine (expression_arises q).bind ?_
    rintro ⟨_, q, _⟩ inside
    refine (expect_passes q _).bind ?_
    rintro ⟨_, q, _⟩ closing
    exact .bracket { first with kind } inside closing
  case h_12 => trivial
termination_by p.size * 8

theorem expressions_arises (p : Parser) (closing : TokenKind) :
    p.Arises (fun r => .row closing r.1 r.2) (p.expressions closing) := by
  rw [expressions]
  refine eat_bind ?_ fun _ q _ last => ?_
  · refine (expression_arises p).bind ?_
    rintro ⟨_, q, _⟩ first
    refine eat_bind ?_ fun _ q _ comma => ?_
    · refine (expect_passes q _).bind ?_
      rintro ⟨_, q, _⟩ last
      exact .rowLast first last
    · refine (expressions_arises q closing).bind ?_
      rintro ⟨_, q, _⟩ others
      exact .rowMore first comma others
  · exact .rowEnd last
termination_by p.size * 8 + 4

theorem entries_arises (p : Parser) : p.Arises (fun r => .entries r.1 r.2) p.entries := by
  rw [entries]
  refine eat_bind ?_ fun _ q _ last => ?_
  · refine (expression_arises p).bind ?_
    rintro ⟨_, q, _⟩ key
    refine (expect_passes q _).bind ?_
    rintro ⟨_, q, _⟩ colon
    refine (expression_arises q).bind ?_
    rintro ⟨_, q, _⟩ value
    refine eat_bind ?_ fun _ q _ comma => ?_
    · refine (expect_passes q _).bind ?_
      rintro ⟨_, q, _⟩ last
      exact .entriesLast key colon value last
    · refine (entries_arises q).bind ?_
      rintro ⟨_, q, _⟩ others
      exact .entriesMore key colon value comma others
  · exact .entriesEnd last
termination_by p.size * 8 + 4

end

theorem program_arises (p : Parser) : p.Arises .program p.program := by
  rw [program]
  refine finds_bind fun following seen => ?_
  split
  next kind => exact .programEnd seen kind
  next =>
    refine (expect_passes p _).bind ?_
    rintro ⟨_, q, _⟩ skipped
    refine (program_arises q).bind ?_
    rintro ⟨_, q, _⟩ rest
    exact .programSkip skipped rest
  next =>
    refine (statement_arises p).bind ?_
    rintro ⟨_, q, _⟩ first
    refine (expect_passes q _).bind ?_
    rintro ⟨_, q, _⟩ semicolon
    refine (program_arises q).bind ?_
    rintro ⟨_, q, _⟩ rest
    exact .programMore first semicolon rest
termination_by p.size

end Parser

/-- A program is read by the rules. -/
theorem Program.reaches_of_parse {text : String} {p : Program}
    (parsed : Program.parse text = .ok p) : ∃ q, (Parser.ofSource text).Reaches (.program p) q := by
  have arises := Parser.program_arises (Parser.ofSource text)
  unfold Program.parse at parsed
  cases read : (Parser.ofSource text).program with
  | ok found =>
    rw [read] at arises parsed
    cases parsed
    exact ⟨found.parser, arises⟩
  | error failure =>
    rw [read] at parsed
    cases parsed

end ExprLang
