import ExprLang.Proofs.RoundTrip.Attempt

set_option autoImplicit false

/-!
The words of a syntax tree are read as that tree, up to places. The induction is over the tree; what
follows an expression must not be a word that could still belong to it.
-/

namespace ExprLang.Parser

variable {p : Parser} {ws : List Word}

theorem typeExpr_reads (t : TypeExpr) (h : p.Holds (t.words ws)) :
    Reads p.typeExpr (·.bare = t.bare) ws := by
  induction t generalizing p ws with
  | none | int | dec | str | bool =>
    rw [typeExpr]
    refine h.next_bind fun span q shorter left => ?_
    exact ⟨rfl, left⟩
  | list element _ ih =>
    rw [typeExpr]
    refine h.next_bind fun span q shorter left => ?_
    refine left.expect_bind fun _ q _ left => ?_
    refine (ih left).bind fun found q _ same left => ?_
    refine left.expect_bind fun _ q _ left => ?_
    exact ⟨by simp only [TypeExpr.respan, same], left⟩
  | map key value _ ihKey ihValue =>
    rw [typeExpr]
    refine h.next_bind fun span q shorter left => ?_
    refine left.expect_bind fun _ q _ left => ?_
    refine (ihKey left).bind fun found q _ sameKey left => ?_
    refine left.expect_bind fun _ q _ left => ?_
    refine (ihValue left).bind fun found q _ sameValue left => ?_
    exact ⟨by simp only [TypeExpr.respan, sameKey, sameValue], left⟩

/-! ### What may follow -/

/-- What follows is not taken for the arguments of a call. -/
def Uncalled (ws : List Word) : Prop :=
  ∀ w ∈ ws.head?, w.1 ≠ .symbol .leftParen

/-- Whether a token can only stand after a whole expression. -/
def ends (kind : TokenKind) : Bool :=
  (binaryOp? kind).isNone && kind ≠ .symbol .leftParen && kind ≠ .keyword .else_

/-- What follows cannot belong to an expression any more. -/
def Stops (ws : List Word) : Prop :=
  ∀ w ∈ ws.head?, ends w.1 = true

theorem Stops.of_ends {w : Word} (h : ends w.1 = true) (ws : List Word) : Stops (w :: ws) := by
  rintro _ ⟨⟩
  exact h

theorem Stops.uncalled (stops : Stops ws) : Uncalled ws := by
  intro w first paren
  have h := stops w first
  rw [paren] at h
  cases h

theorem Stops.operationRest (stops : Stops ws) (power : Nat) (lhs : Expr) (h : p.Holds ws) :
    Reads (p.operationRest power lhs) (· = lhs) ws := by
  rw [Parser.operationRest]
  refine h.leave_bind (fun word first span => ?_) ⟨rfl, h⟩
  have h := stops word first
  simp only [ends, Bool.and_eq_true, Option.isNone_iff_eq_none] at h
  rw [h.1.1]
  rfl

theorem binaryOp?_word (op : BinaryOp) : binaryOp? op.word.1 = some op := by
  cases op <;> rfl

theorem uncalled_operator (op : BinaryOp) (ws : List Word) : Uncalled (op.word :: ws) := by
  rintro _ ⟨⟩
  cases op <;> nofun

/-! ### Levels -/

/-- An operation is a first operand and what is joined to it. -/
theorem operation_reads {words middle : List Word} {good good' : Expr → Prop} {power : Nat}
    (h : p.Holds words) (nonempty : words ≠ []) (first : Reads p.descend.operand good middle)
    (rest : ∀ (q : Parser) (lhs : Expr), good lhs → q.Holds middle →
      Reads (q.operationRest power lhs) good' ws) :
    Reads (p.operation power) good' ws := by
  obtain ⟨word, words, rfl⟩ := List.exists_cons_of_ne_nil nonempty
  rw [operation]
  refine h.peek_bind fun span => ?_
  split
  next => exact rfl
  next =>
    refine first.bind fun lhs q _ fine left => ?_
    refine (rest q lhs fine left).bind fun e q _ fine left => ?_
    exact ⟨fine, left.ascend⟩

/-- An operand is an operation if nothing can be joined to it. -/
theorem operation_single {words : List Word} {good : Expr → Prop} (h : p.Holds words)
    (nonempty : words ≠ []) (stops : Stops ws) (inner : Reads p.descend.operand good ws)
    (power : Nat) : Reads (p.operation power) good ws := by
  refine operation_reads h nonempty inner fun q lhs fine left => ?_
  refine (stops.operationRest power lhs left).imp fun e eq => ?_
  rw [eq]
  exact fine

/-- An expression is as good as what its first word makes of it. -/
theorem expression_reads {word : Word} {words : List Word} {good : Expr → Prop}
    (h : p.Holds (word :: words)) (inner : Reads (p.descend.expressionFrom word.1) good ws) :
    Reads p.expression good ws := by
  rw [expression]
  refine h.peek_bind fun span => ?_
  split
  next => exact rfl
  next =>
    dsimp only
    cases eq : p.descend.expressionFrom word.1 with
    | ok parsed =>
      rw [eq] at inner
      exact ⟨inner.1, inner.2.ascend⟩
    | error failure =>
      rw [eq] at inner
      exact inner

/-! ### Expressions -/

/-- Where the words of the expression stand, the expression is read, as whatever it can stand for. A
statement is read up to the semicolon after it. -/
structure ReadBack (e : Expr) : Prop where
  operand : e.isExit = false → e.isCompound = false → ∀ {p : Parser} {ws : List Word},
    Uncalled ws → p.Holds (e.words ws) → Reads p.operand (·.bare = e.bare) ws
  expression : e.isExit = false → ∀ {p : Parser} {ws : List Word},
    Stops ws → p.Holds (e.words ws) → Reads p.expression (·.bare = e.bare) ws
  statement : ∀ {p : Parser} {ws : List Word}, p.Holds (e.words (Symbol.semicolon.word :: ws)) →
    Reads p.statement (·.bare = e.bare) (Symbol.semicolon.word :: ws)

/-- A part of an expression that is read back as an expression. -/
def ReadPart (e : Expr) : Prop :=
  e.isExit = false ∧ ReadBack e

theorem ReadPart.expression {e : Expr} (part : ReadPart e) (stops : Stops ws)
    (h : p.Holds (e.words ws)) : Reads p.expression (·.bare = e.bare) ws :=
  part.2.expression part.1 stops h

theorem ReadPart.operation {e : Expr} (part : ReadPart e) (simple : e.isCompound = false)
    (stops : Stops ws) (h : p.Holds (e.words ws)) (power : Nat) :
    Reads (p.operation power) (·.bare = e.bare) ws := by
  obtain ⟨valued, back⟩ := part
  obtain ⟨first, tail, eq, _⟩ := Expr.words_opens valued ws
  have nonempty : e.words ws ≠ [] := by
    rw [eq]
    exact List.cons_ne_nil _ _
  exact operation_single h nonempty stops
    (back.operand valued simple stops.uncalled h.descend) power

theorem operand_literal {value : Literal} (plain : value.Plain) (unsigned : value.Unsigned)
    (h : p.Holds (value.word :: ws)) :
    Reads p.operand (·.bare = .literal value default) ws := by
  rw [operand]
  cases value with
  | int n =>
    obtain ⟨n, rfl⟩ := Int.eq_ofNat_of_zero_le unsigned
    refine h.lexed_bind fun span q _ spelled left => ?_
    simp only [spelled, Literal.int?_toString]
    exact ⟨rfl, left⟩
  | dec d =>
    refine h.lexed_bind fun span q _ spelled left => ?_
    simp only [spelled, Literal.dec?_literal plain unsigned.1 unsigned.2]
    exact ⟨rfl, left⟩
  | str s =>
    refine h.lexed_bind fun span q _ spelled left => ?_
    simp only [spelled, StringLiteral.value_quote plain]
    exact ⟨rfl, left⟩
  | bool b =>
    cases b with
    | true => exact h.next_bind fun span q _ left => ⟨rfl, left⟩
    | false => exact h.next_bind fun span q _ left => ⟨rfl, left⟩

/-- A row of expressions up to the token that closes it. -/
theorem expressions_reads (closing : TokenKind) {lexeme : String} {items : List Expr}
    (all : ∀ x ∈ items, ReadPart x) (last : ends closing = true) (other : closing ≠ .symbol .comma)
    (closes : closing.opens = false)
    (h : p.Holds (Expr.wordsAll items ((closing, lexeme) :: ws))) :
    Reads (p.expressions closing) (fun row => Expr.bareAll row.1 = Expr.bareAll items) ws := by
  induction items generalizing p with
  | nil =>
    rw [expressions]
    exact h.eat_bind fun span q _ left => ⟨rfl, left⟩
  | cons e es ih =>
    have part := all e (List.mem_cons_self ..)
    have apart : ∀ {ws}, ∀ w ∈ (e.words ws).head?, w.1 ≠ closing := by
      rintro ws w first rfl
      rw [Expr.opens_of_head part.1 w first] at closes
      cases closes
    rw [expressions]
    cases es with
    | nil =>
      refine h.pass_bind apart ?_
      refine (part.expression (.of_ends last ws) h).bind fun found q _ same left => ?_
      refine left.pass_bind (by rintro _ ⟨⟩; exact other) ?_
      refine left.expect_bind fun _ q _ left => ?_
      exact ⟨by simp only [Expr.respanAll, same], left⟩
    | cons e' es =>
      refine h.pass_bind apart ?_
      refine (part.expression (.of_ends rfl _) h).bind fun found q _ same left => ?_
      refine left.eat_bind fun _ q _ left => ?_
      have others := ih (fun x inside => all x (List.mem_cons_of_mem _ inside)) left
      refine others.bind fun row q _ sames left => ?_
      exact ⟨by simp only [Expr.respanAll, same, sames], left⟩

theorem entries_reads {items : List (Expr × Expr)}
    (all : ∀ x ∈ items, ReadPart x.1 ∧ ReadPart x.2)
    (h : p.Holds (Expr.wordsEntries items (Symbol.rightTriangle.word :: ws))) :
    Reads p.entries (fun row => Expr.bareEntries row.1 = Expr.bareEntries items) ws := by
  induction items generalizing p with
  | nil =>
    rw [entries]
    exact h.eat_bind fun span q _ left => ⟨rfl, left⟩
  | cons entry es ih =>
    obtain ⟨key, value⟩ := entry
    obtain ⟨first, second⟩ := all (key, value) (List.mem_cons_self ..)
    have apart : ∀ {ws}, ∀ w ∈ (key.words ws).head?, w.1 ≠ .symbol .rightTriangle := by
      intro ws w here eq
      have opens := Expr.opens_of_head first.1 w here
      rw [eq] at opens
      cases opens
    rw [entries]
    cases es with
    | nil =>
      refine h.pass_bind apart ?_
      refine (first.expression (.of_ends rfl _) h).bind fun k q _ sameKey left => ?_
      refine left.expect_bind fun _ q _ left => ?_
      refine (second.expression (.of_ends rfl _) left).bind fun v q _ sameValue left => ?_
      refine left.pass_bind (by rintro _ ⟨⟩ ⟨⟩) ?_
      refine left.expect_bind fun _ q _ left => ?_
      exact ⟨by simp only [Expr.respanEntries, sameKey, sameValue], left⟩
    | cons entry' es =>
      refine h.pass_bind apart ?_
      refine (first.expression (.of_ends rfl _) h).bind fun k q _ sameKey left => ?_
      refine left.expect_bind fun _ q _ left => ?_
      refine (second.expression (.of_ends rfl _) left).bind fun v q _ sameValue left => ?_
      refine left.eat_bind fun _ q _ left => ?_
      have others := ih (fun x inside => all x (List.mem_cons_of_mem _ inside)) left
      refine others.bind fun row q _ sames left => ?_
      refine ⟨?_, left⟩
      show (k.bare, v.bare) :: Expr.bareEntries row.1 = _
      rw [sameKey, sameValue, sames]
      rfl

/-- An operand in brackets is the expression in them. -/
theorem operand_paren {words : List Word} {e : Expr} (h : p.Holds (Symbol.leftParen.word :: words))
    (inner : ∀ q : Parser, q.Holds words →
      Reads q.expression (·.bare = e.bare) (Symbol.rightParen.word :: ws)) :
    Reads p.operand (·.bare = e.bare) ws := by
  rw [operand]
  refine h.next_bind fun span q _ left => ?_
  refine (inner q left).bind fun found q _ same left => ?_
  refine left.expect_bind fun _ q _ left => ?_
  exact ⟨(Expr.bare_withSpan ..).trans same, left⟩

/-- An operator in front of its operand. -/
theorem operand_operator {op : UnaryOp} {e : Expr} (part : ReadPart e)
    (simple : e.isCompound = false) (stops : Stops ws) (h : p.Holds (op.word :: e.words ws)) :
    Reads p.operand (·.bare = .unary op e.bare default) ws := by
  rw [operand]
  -- Nothing follows the operand, so it does not matter how strongly the operator binds.
  cases op
  all_goals
    refine h.next_bind fun span q _ left => ?_
    refine (part.operation simple stops left _).bind fun rhs q _ same left => ?_
    exact ⟨by simp only [Expr.respan, same], left⟩

theorem expressionFrom_operator (op : UnaryOp) : p.expressionFrom op.word.1 = p.operation 0 := by
  rw [expressionFrom.eq_def]
  cases op <;> rfl

theorem operand_unary {op : UnaryOp} {e : Expr} {span : Span} (part : ReadPart e)
    (simple : e.isCompound = false) (h : p.Holds ((Expr.unary op e span).words ws)) :
    Reads p.operand (·.bare = (Expr.unary op e span).bare) ws := by
  rw [Expr.words] at h
  refine operand_paren h fun q left => expression_reads left ?_
  rw [expressionFrom_operator]
  have stops : Stops (Symbol.rightParen.word :: ws) := .of_ends rfl ws
  exact operation_single left.descend (List.cons_ne_nil _ _) stops
    (operand_operator part simple stops left.descend.descend) 0

theorem expressionFrom_simple {e : Expr} (valued : e.isExit = false)
    (simple : e.isCompound = false) (ws : List Word) :
    ∃ first tail, e.words ws = first :: tail ∧
      ∀ p : Parser, p.expressionFrom first.1 = p.operation 0 := by
  cases e with
  | literal l =>
    refine ⟨_, _, by rw [Expr.words], fun p => ?_⟩
    rw [expressionFrom.eq_def]
    cases l with
    | bool b => cases b <;> rfl
    | _ => rfl
  | declare | assign | block | cond | loop => cases simple
  | exit => cases valued
  | _ =>
    refine ⟨_, _, by rw [Expr.words], fun p => ?_⟩
    rw [expressionFrom.eq_def]
    rfl

/-- An operator and the operand after it are joined to the one before. -/
theorem operationRest_binary {op : BinaryOp} {lhs rhs : Expr} (right : ReadPart rhs)
    (simple : rhs.isCompound = false) (stops : Stops ws) (h : p.Holds (op.word :: rhs.words ws)) :
    Reads (p.operationRest 0 lhs) (·.bare = .binary op lhs.bare rhs.bare default) ws := by
  -- Operations in brackets start at the lowest power, which every operator has.
  have accepted (span : Span) :
      (binaryOp? (Token.mk op.word.1 span).kind).filter (0 ≤ ·.leftPower) = some op := by
    simp [binaryOp?_word, Option.filter]
  rw [Parser.operationRest]
  refine h.takeIf_bind accepted fun span q _ left => ?_
  refine (right.operation simple stops left op.rightPower).bind fun found q _ same left => ?_
  refine (stops.operationRest 0 _ left).bind fun e q _ eq left => ?_
  exact ⟨by simp only [eq, Expr.respan, same], left⟩

theorem operand_binary {op : BinaryOp} {lhs rhs : Expr} {span : Span} (left : ReadPart lhs)
    (right : ReadPart rhs) (simpleLeft : lhs.isCompound = false)
    (simpleRight : rhs.isCompound = false) (h : p.Holds ((Expr.binary op lhs rhs span).words ws)) :
    Reads p.operand (·.bare = (Expr.binary op lhs rhs span).bare) ws := by
  obtain ⟨valued, back⟩ := left
  rw [Expr.words] at h
  refine operand_paren h fun q inside => ?_
  obtain ⟨first, tail, eq, simple⟩ := expressionFrom_simple valued simpleLeft
    (op.word :: rhs.words (Symbol.rightParen.word :: ws))
  have spelled := inside
  rw [eq] at spelled
  refine expression_reads spelled ?_
  rw [simple]
  refine operation_reads spelled.descend (List.cons_ne_nil _ _)
    (back.operand valued simpleLeft (uncalled_operator op _) inside.descend.descend) ?_
  intro q found same following
  refine (operationRest_binary right simpleRight (.of_ends rfl ws) following).imp fun e eq => ?_
  rw [eq, same]
  rfl

/-- The expressions that can be operands, from their parts. -/
theorem operand_reads {e : Expr} (regular : e.Regular) (plain : e.Plain)
    (back : ∀ x ∈ e.children, ReadBack x) (valued : e.isExit = false)
    (simple : e.isCompound = false) (uncalled : Uncalled ws) (h : p.Holds (e.words ws)) :
    Reads p.operand (·.bare = e.bare) ws := by
  cases e with
  | literal value span => exact operand_literal plain (regular.unsigned value span rfl) h
  | list items span =>
    have parts : ∀ x ∈ items, ReadPart x := fun x inside => ⟨regular.parts x inside, back x inside⟩
    rw [operand]
    refine h.next_bind fun _ q _ left => ?_
    have row := expressions_reads (.symbol .rightBracket) parts rfl (by decide) rfl left
    refine row.bind fun row q _ sames left => ?_
    exact ⟨by simp only [Expr.respan, sames], left⟩
  | map entries span =>
    have parts : ∀ x ∈ entries, ReadPart x.1 ∧ ReadPart x.2 := by
      intro x inside
      have part : ∀ y ∈ [x.1, x.2], ReadPart y := by
        intro y here
        have child : y ∈ (Expr.map entries span).children := List.mem_flatMap.2 ⟨x, inside, here⟩
        exact ⟨regular.parts y child, back y child⟩
      exact ⟨part _ (by simp), part _ (by simp)⟩
    rw [operand]
    refine h.next_bind fun _ q _ left => ?_
    refine (entries_reads parts left).bind fun row q _ sames left => ?_
    exact ⟨by simp only [Expr.respan, sames], left⟩
  | name ident span =>
    rw [operand]
    refine h.lexed_bind fun _ q _ spelled left => ?_
    dsimp only
    rw [spelled]
    exact left.pass_bind uncalled ⟨rfl, left⟩
  | unary op operand span =>
    have inside : operand ∈ [operand] := List.mem_singleton_self _
    exact operand_unary ⟨regular.parts operand inside, back operand inside⟩ plain h
  | binary op lhs rhs span =>
    have part : ∀ x ∈ [lhs, rhs], ReadPart x :=
      fun x inside => ⟨regular.parts x inside, back x inside⟩
    exact operand_binary (part lhs (by simp)) (part rhs (by simp)) plain.1 plain.2 h
  | call callee arguments span =>
    have parts : ∀ x ∈ arguments, ReadPart x :=
      fun x inside => ⟨regular.parts x inside, back x inside⟩
    rw [operand]
    refine h.lexed_bind fun _ q _ spelled left => ?_
    dsimp only
    rw [spelled]
    refine left.eat_bind fun _ q _ left => ?_
    have row := expressions_reads (.symbol .rightParen) parts rfl (by decide) rfl left
    refine row.bind fun row q _ sames left => ?_
    exact ⟨by simp only [Expr.respan, Ident.respan, sames], left⟩
  | declare | assign | block | cond | loop => cases simple
  | exit => cases valued

/-! ### Statements -/

theorem declaration_reads {d : Declaration} (value : ReadPart d.value) (stops : Stops ws)
    (h : p.Holds (d.words ws)) : Reads p.declaration (·.bare = d.bare) ws := by
  obtain ⟨binding, name, type, init, span⟩ := d
  rw [Declaration.words] at h
  rw [declaration]
  -- Both keywords go the same way.
  cases binding
  all_goals
    refine h.next_bind fun _ q _ left => ?_
    refine left.expectIdent_bind fun _ q _ left => ?_
    refine (typeExpr_reads type left).bind fun found q _ sameType left => ?_
    refine left.expect_bind fun _ q _ left => ?_
    refine (value.expression stops left).bind fun found q _ sameValue left => ?_
    exact ⟨by simp only [Declaration.respan, Ident.respan, sameType, sameValue]; rfl, left⟩

theorem declarations_reads {vars : List Declaration} (nonempty : vars ≠ [])
    (all : ∀ d ∈ vars, ReadPart d.value) (stops : Stops ws)
    (other : ∀ w ∈ ws.head?, w.1 ≠ .symbol .comma) (h : p.Holds (Declaration.wordsAll vars ws)) :
    Reads p.declarations (fun ds => Declaration.bareAll ds = Declaration.bareAll vars) ws := by
  induction vars generalizing p with
  | nil => exact absurd rfl nonempty
  | cons d ds ih =>
    have value := all d (List.mem_cons_self ..)
    rw [declarations]
    cases ds with
    | nil =>
      refine (declaration_reads value stops h).bind fun found q _ same left => ?_
      exact left.pass_bind other ⟨by simp only [Declaration.respanAll, same], left⟩
    | cons d' ds =>
      refine (declaration_reads value (.of_ends rfl _) h).bind fun found q _ same left => ?_
      refine left.eat_bind fun _ q _ left => ?_
      have others := ih (List.cons_ne_nil _ _)
        (fun x inside => all x (List.mem_cons_of_mem _ inside)) left
      refine others.bind fun found q _ sames left => ?_
      exact ⟨by simp only [Declaration.respanAll, same, sames], left⟩

/-- The first word of a statement. -/
theorem statement_starts (e : Expr) (ws : List Word) :
    ∃ first tail, e.words ws = first :: tail ∧ first.1 ≠ .symbol .rightBrace ∧
      first.1 ≠ .symbol .semicolon ∧ first.1 ≠ .eof := by
  by_cases valued : e.isExit = false
  · obtain ⟨first, tail, eq, opens⟩ := Expr.words_opens valued ws
    refine ⟨first, tail, eq, ?_, ?_, ?_⟩
    all_goals
      intro kind
      rw [kind] at opens
      cases opens
  · cases e with
    | exit kind value =>
      cases value <;>
        exact ⟨kind.reserved.word, _, by rw [Expr.words], nofun, nofun, nofun⟩
    | _ => exact absurd rfl valued

theorem blockRest_reads {statements : List Expr} (all : ∀ x ∈ statements, ReadBack x)
    (h : p.Holds (Expr.wordsLines statements (Symbol.rightBrace.word :: ws))) :
    Reads p.blockRest (fun r => Expr.bareAll r.1 = Expr.bareAll statements) ws := by
  induction statements generalizing p with
  | nil =>
    rw [blockRest]
    refine h.peek_bind fun _ => ?_
    exact h.expect_bind fun _ q _ left => ⟨rfl, left⟩
  | cons e es ih =>
    have back := all e (List.mem_cons_self ..)
    obtain ⟨first, tail, eq, brace, semicolon, eof⟩ := statement_starts e
      (Symbol.semicolon.word :: Expr.wordsLines es (Symbol.rightBrace.word :: ws))
    rw [Expr.wordsLines] at h
    have spelled := h
    rw [eq] at spelled
    rw [blockRest]
    refine spelled.peek_bind fun _ => ?_
    split
    next kind => exact absurd kind brace
    next kind => exact absurd kind semicolon
    next kind => exact absurd kind eof
    next =>
      refine (back.statement h).bind fun found q _ same left => ?_
      refine left.eat_bind fun _ q _ left => ?_
      have others := ih (fun x inside => all x (List.mem_cons_of_mem _ inside)) left
      refine others.bind fun found q _ sames left => ?_
      exact ⟨by simp only [Expr.respanAll, same, sames], left⟩

theorem block_reads {b : Block} (all : ∀ x ∈ b.statements, ReadBack x) (h : p.Holds (b.words ws)) :
    Reads p.block (·.bare = b.bare) ws := by
  obtain ⟨statements, span⟩ := b
  rw [Block.words] at h
  rw [block]
  refine h.expect_bind fun _ q _ left => ?_
  refine (blockRest_reads all left).bind fun found q _ sames left => ?_
  exact ⟨by simp only [Block.respan, sames, Block.statements], left⟩

theorem conditional_reads {p : Parser} {ws : List Word} (branches : Conditional)
    (conditions : ∀ x ∈ branches.conditions, x.isExit = false)
    (all : ∀ x ∈ branches.children, ReadBack x) (stops : Stops ws)
    (h : p.Holds (branches.words ws)) :
    Reads p.conditional (fun r => r.1.bare = branches.bare) ws := by
  have valued := conditions _ branches.condition_mem_conditions
  have back := all _ branches.condition_mem
  have inBody := fun x inside => all x (branches.body_subset inside)
  rw [Conditional.words_eq] at h
  rw [conditional]
  refine h.expect_bind fun _ q _ left => ?_
  refine (back.expression valued (.of_ends rfl _) left).bind fun found q _ same left => ?_
  refine left.expect_bind fun _ q _ left => ?_
  refine (block_reads inBody left).bind fun found q _ sameBody left => ?_
  -- What comes next tells the three kinds of conditionals apart.
  cases branches with
  | only condition body =>
    refine left.pass_bind ?_ ⟨by simp only [Conditional.respan, same, sameBody]; rfl, left⟩
    intro w first eq
    have last := stops w first
    rw [eq] at last
    cases last
  | withElse condition body otherwise =>
    obtain ⟨statements, span⟩ := otherwise
    have inElse : ∀ x ∈ (Block.mk statements span).statements, ReadBack x :=
      fun x inside => all x (List.mem_cons_of_mem _ (List.mem_append_right _ inside))
    refine left.eat_bind fun _ q _ left => ?_
    rw [Block.words] at left
    refine left.peek_bind fun _ => ?_
    refine (block_reads inElse left).bind fun found q _ sameElse left => ?_
    exact ⟨by simp only [Conditional.respan, same, sameBody, sameElse]; rfl, left⟩
  | withElseIf condition body next span =>
    have inNext : ∀ x ∈ next.children, ReadBack x :=
      fun x inside => all x (List.mem_cons_of_mem _ (List.mem_append_right _ inside))
    refine left.eat_bind fun _ q _ left => ?_
    have spelled := left
    rw [Conditional.words_eq] at spelled
    refine spelled.peek_bind fun _ => ?_
    have following := conditional_reads next
      (fun x inside => conditions x (List.mem_cons_of_mem _ inside)) inNext stops left
    refine following.bind fun found q _ sameNext left => ?_
    exact ⟨by simp only [Conditional.respan, same, sameBody, sameNext]; rfl, left⟩

/-- The expressions that are read by their first word, from their parts. -/
theorem compound_reads {e : Expr} (regular : e.Regular) (back : ∀ x ∈ e.children, ReadBack x)
    (compound : e.isCompound = true) (stops : Stops ws) (h : p.Holds (e.words ws)) :
    Reads p.expression (·.bare = e.bare) ws := by
  have part : ∀ x ∈ e.parts, x ∈ e.children → ReadPart x :=
    fun x inside child => ⟨regular.parts x inside, back x child⟩
  cases e with
  | declare d span =>
    have value := part d.value (List.mem_singleton_self _) (List.mem_singleton_self _)
    have spelled := h
    rw [Expr.words, Declaration.words_eq] at spelled
    have inner : Reads p.descend.declaration (·.bare = d.bare) ws :=
      declaration_reads value stops h.descend
    refine expression_reads spelled ?_
    rw [expressionFrom.eq_def]
    cases d.binding
    all_goals
      refine inner.bind fun found q _ same left => ?_
      exact ⟨by simp only [Expr.respan, same], left⟩
  | assign target value span =>
    have part := part value (List.mem_singleton_self _) (List.mem_singleton_self _)
    refine expression_reads h ?_
    rw [expressionFrom.eq_def]
    change Reads p.descend.assignment _ _
    rw [assignment]
    refine h.descend.expect_bind fun _ q _ left => ?_
    refine left.expectIdent_bind fun _ q _ left => ?_
    refine left.next_bind fun _ q _ left => ?_
    refine (part.expression stops left).bind fun found q _ same left => ?_
    exact ⟨by simp only [Expr.respan, Ident.respan, assignedValue, same], left⟩
  | block body span =>
    have inner : Reads p.descend.block (·.bare = body.bare) ws := block_reads back h.descend
    obtain ⟨statements, bodySpan⟩ := body
    have spelled := h
    rw [Expr.words, Block.words] at spelled
    refine expression_reads spelled ?_
    rw [expressionFrom.eq_def]
    refine inner.bind fun found q _ same left => ?_
    exact ⟨by simp only [Expr.respan, same], left⟩
  | cond branches span =>
    have spelled := h
    rw [Expr.words, Conditional.words_eq] at spelled
    refine expression_reads spelled ?_
    rw [expressionFrom.eq_def]
    refine (conditional_reads branches regular.parts back stops h.descend).bind
      fun found q _ same left => ?_
    exact ⟨by simp only [Expr.respan, same], left⟩
  | loop vars body span =>
    have values : ∀ d ∈ vars, ReadPart d.value := by
      intro d inside
      have value : d.value ∈ vars.map (·.value) := List.mem_map_of_mem inside
      exact part d.value value (List.mem_append_left _ value)
    have inBody : ∀ x ∈ body.statements, ReadBack x :=
      fun x inside => back x (List.mem_append_right _ inside)
    have nonempty : vars ≠ [] := by
      rintro rfl
      exact regular.vars body span rfl
    refine expression_reads h ?_
    rw [expressionFrom.eq_def]
    change Reads p.descend.loop _ _
    rw [loop]
    refine h.descend.expect_bind fun _ q _ left => ?_
    obtain ⟨statements, bodySpan⟩ := body
    have header := declarations_reads nonempty values (.of_ends rfl _)
      (by rintro _ ⟨⟩ ⟨⟩) left
    refine header.bind fun found q _ sames left => ?_
    refine (block_reads inBody left).bind fun found q _ same left => ?_
    exact ⟨by simp only [Expr.respan, sames, same], left⟩
  | _ => cases compound

theorem statement_reads {e : Expr} (regular : e.Regular) (back : ∀ x ∈ e.children, ReadBack x)
    (expression : e.isExit = false →
      Reads p.expression (·.bare = e.bare) (Symbol.semicolon.word :: ws))
    (h : p.Holds (e.words (Symbol.semicolon.word :: ws))) :
    Reads p.statement (·.bare = e.bare) (Symbol.semicolon.word :: ws) := by
  rw [statement]
  by_cases valued : e.isExit = false
  · refine h.leave_bind (fun word first _ => ?_) (expression valued)
    have opens : word.1.opens = true := Expr.opens_of_head valued word first
    split
    next kind => rw [show word.1 = _ from kind] at opens; cases opens
    next kind => rw [show word.1 = _ from kind] at opens; cases opens
    next => rfl
  · cases e with
    | exit kind value span =>
      cases value with
      | none =>
        cases kind
        all_goals
          refine h.takeIf_bind (fun _ => rfl) fun _ q _ left => ?_
          refine left.peek_bind fun _ => ?_
          exact ⟨rfl, left⟩
      | some value =>
        have fine := regular.parts value (List.mem_singleton_self _)
        have inner := (back value (List.mem_singleton_self _)).expression
        obtain ⟨first, tail, eq, brace, semicolon, eof⟩ :=
          statement_starts value (Symbol.semicolon.word :: ws)
        cases kind
        all_goals
          refine h.takeIf_bind (fun _ => rfl) fun _ q _ left => ?_
          have spelled := left
          rw [eq] at spelled
          refine spelled.peek_bind fun _ => ?_
          split
          next kind => exact absurd kind semicolon
          next kind => exact absurd kind brace
          next kind => exact absurd kind eof
          next =>
            refine (inner fine (.of_ends rfl _) left).bind fun found q _ same left => ?_
            exact ⟨by simp only [Expr.respan, same], left⟩
    | _ => exact absurd rfl valued

/-- The words of an expression are read as that expression. -/
theorem readBack {e : Expr} (regular : e.Everywhere Expr.Regular)
    (plain : e.Everywhere Expr.Plain) : ReadBack e := by
  induction e using Expr.childInduction with | step e hypothesis
  have back : ∀ x ∈ e.children, ReadBack x :=
    fun x inside => hypothesis x inside (regular.child inside) (plain.child inside)
  have operand : e.isExit = false → e.isCompound = false → ∀ {p : Parser} {ws : List Word},
      Uncalled ws → p.Holds (e.words ws) → Reads p.operand (·.bare = e.bare) ws :=
    fun valued simple {p ws} => operand_reads regular.self plain.self back valued simple
  have expression : e.isExit = false → ∀ {p : Parser} {ws : List Word},
      Stops ws → p.Holds (e.words ws) → Reads p.expression (·.bare = e.bare) ws := by
    intro valued p ws stops h
    cases shape : e.isCompound with
    | true => exact compound_reads regular.self back shape stops h
    | false =>
      obtain ⟨first, tail, eq, simple⟩ := expressionFrom_simple valued shape ws
      have spelled := h
      rw [eq] at spelled
      refine expression_reads spelled ?_
      rw [simple]
      exact operation_single spelled.descend (List.cons_ne_nil _ _) stops
        (operand valued shape stops.uncalled h.descend.descend) 0
  exact ⟨operand, expression, fun h => statement_reads regular.self back
    (fun valued => expression valued (.of_ends rfl _) h) h⟩

theorem program_reads {statements : Program} (all : ∀ x ∈ statements, ReadBack x)
    (h : p.Holds (Expr.wordsLines statements [])) :
    Reads p.program (fun q => q.bare = statements.bare) [] := by
  induction statements generalizing p with
  | nil =>
    rw [program]
    refine h.peek_end_bind fun token eof => ?_
    simp only [eof]
    exact ⟨rfl, h⟩
  | cons e es ih =>
    have back := all e (List.mem_cons_self ..)
    obtain ⟨first, tail, eq, _, semicolon, eof⟩ :=
      statement_starts e (Symbol.semicolon.word :: Expr.wordsLines es [])
    rw [Expr.wordsLines] at h
    have spelled := h
    rw [eq] at spelled
    rw [program]
    refine spelled.peek_bind fun _ => ?_
    split
    next kind => exact absurd kind eof
    next kind => exact absurd kind semicolon
    next =>
      refine (back.statement h).bind fun found q _ same left => ?_
      refine left.expect_bind fun _ q _ left => ?_
      have others := ih (fun x inside => all x (List.mem_cons_of_mem _ inside)) left
      refine others.bind fun found q _ sames left => ?_
      simp only [Program.respan] at sames
      exact ⟨by simp only [Program.respan, Expr.respanAll, same, sames], left⟩

end ExprLang.Parser
