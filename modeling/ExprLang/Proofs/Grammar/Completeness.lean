import ExprLang.Proofs.Grammar.Phrases
import ExprLang.Proofs.Grammar.Scanned
import ExprLang.Proofs.RoundTrip.Attempt

set_option autoImplicit false

/-!
What is in the grammar is read: where a phrase stands in front of something that cannot belong to
it, the parser gets past it, unless the nesting is too deep. One token tells what to read next, so
the first and the following tokens of phrases come first; the proofs then follow the parser.
-/

namespace ExprLang

/-! ### First tokens -/

def testKinds : List TokenKind :=
  literalKinds ++ unaryKinds ++
    [.symbol .leftBracket, .symbol .leftTriangle, .ident, .symbol .leftParen]

def expressionKinds : List TokenKind :=
  testKinds ++ bindingKinds ++
    [.keyword .set, .keyword .if_, .keyword .for_, .symbol .leftBrace]

namespace Derives

theorem first_atom {a : List TokenKind} (h : Derives .atom a) :
    ∃ k t, a = k :: t ∧ k ∈ testKinds := by
  cases h with
  | literal known => exact ⟨_, _, rfl, List.mem_append_left _ (List.mem_append_left _ known)⟩
  | list | map | name | call | bracket => exact ⟨_, _, rfl, by decide⟩

theorem first_operand {a : List TokenKind} (h : Derives .operand a) :
    ∃ k t, a = k :: t ∧ k ∈ testKinds := by
  cases h with
  | plain atom => exact atom.first_atom
  | unary known => exact ⟨_, _, rfl, List.mem_append_left _ (List.mem_append_right _ known)⟩

theorem first_test {a : List TokenKind} (h : Derives .test a) :
    ∃ k t, a = k :: t ∧ k ∈ testKinds := by
  obtain ⟨a, c, rfl, operand, _⟩ := h.exists_chain
  obtain ⟨k, t, rfl, known⟩ := operand.first_operand
  exact ⟨k, t ++ c, rfl, known⟩

theorem first_declaration {d : List TokenKind} (h : Derives .declaration d) :
    ∃ k t, d = k :: t ∧ k ∈ bindingKinds := by
  cases h with
  | declaration known => exact ⟨_, _, rfl, known⟩

theorem first_conditional {c : List TokenKind} (h : Derives .conditional c) :
    ∃ t, c = .keyword .if_ :: t := by
  cases h <;> exact ⟨_, rfl⟩

theorem first_expression {e : List TokenKind} (h : Derives .expression e) :
    ∃ k t, e = k :: t ∧ k ∈ expressionKinds := by
  cases h with
  | declared h =>
    obtain ⟨k, t, rfl, known⟩ := h.first_declaration
    exact ⟨k, t, rfl, List.mem_append_left _ (List.mem_append_right _ known)⟩
  | assigned h => cases h; exact ⟨_, _, rfl, by decide⟩
  | branched h => cases h <;> exact ⟨_, _, rfl, by decide⟩
  | looped h => cases h; exact ⟨_, _, rfl, by decide⟩
  | grouped h => cases h <;> exact ⟨_, _, rfl, by decide⟩
  | tested h =>
    obtain ⟨k, t, rfl, known⟩ := h.first_test
    exact ⟨k, t, rfl, List.mem_append_left _ (List.mem_append_left _ known)⟩

theorem first_statement {s : List TokenKind} (h : Derives .statement s) :
    ∃ k t, s = k :: t ∧ k ∈ expressionKinds ++ exitKinds := by
  cases h with
  | exit known => exact ⟨_, _, rfl, List.mem_append_right _ known⟩
  | exitWith known => exact ⟨_, _, rfl, List.mem_append_right _ known⟩
  | evaluated h =>
    obtain ⟨k, t, rfl, known⟩ := h.first_expression
    exact ⟨k, t, rfl, List.mem_append_left _ known⟩

end Derives

/-! ### Following tokens -/

/-- Kinds that can stand after an expression. -/
def endKinds : List TokenKind :=
  [.symbol .comma, .symbol .colon, .symbol .semicolon, .symbol .rightParen, .symbol .rightBracket,
   .symbol .rightTriangle, .symbol .rightBrace, .symbol .leftBrace, .keyword .then_]

/-- What follows cannot belong to an expression any more. -/
def Ended (kinds : List TokenKind) : Prop :=
  ∀ k ∈ kinds.head?, k ∈ endKinds

/-- What follows ends a statement. -/
def Closed (kinds : List TokenKind) : Prop :=
  ∀ k ∈ kinds.head?, k = .symbol .semicolon ∨ k = .symbol .rightBrace

theorem Ended.of_mem {k : TokenKind} (h : k ∈ endKinds) (rest : List TokenKind) :
    Ended (k :: rest) := by
  rintro _ ⟨⟩
  exact h

theorem Closed.of_semicolon (rest : List TokenKind) : Closed (.symbol .semicolon :: rest) := by
  rintro _ ⟨⟩
  exact .inl rfl

theorem Closed.of_brace (rest : List TokenKind) : Closed (.symbol .rightBrace :: rest) := by
  rintro _ ⟨⟩
  exact .inr rfl

theorem Closed.ended {kinds : List TokenKind} (h : Closed kinds) : Ended kinds := by
  intro k first
  rcases h k first with rfl | rfl <;> decide

/-- Neither what can follow an expression nor an operator opens the arguments of a call. -/
theorem Chain.uncalled {c rest : List TokenKind} (chain : Chain c) (ended : Ended rest) :
    ∀ k ∈ (c ++ rest).head?, k ≠ .symbol .leftParen := by
  rintro k first rfl
  cases chain with
  | nil => exact absurd (ended _ first) (by decide)
  | cons known =>
    cases first
    exact absurd known (by decide)

namespace Parser

variable {α β : Type} {n : Nat} {p : Parser} {kinds rest : List TokenKind}

/-- Tokens of the given kinds are left, and the literals among them have values. -/
def Offers (p : Parser) (kinds : List TokenKind) : Prop :=
  ∃ words : List Word, p.Holds words ∧ words.map Prod.fst = kinds ∧ ∀ w ∈ words, w.1.Denotes w.2

/-- Unless the nesting is too deep, reading succeeds and leaves tokens of the given kinds. -/
abbrev Leads (a : Attempt (Parsed n α)) (kinds : List TokenKind) : Prop :=
  Leaves TooDeep a (fun _ => True) (·.Offers kinds)

theorem Leaves.after {bad : Failure → Prop} {a : Attempt (Parsed n α)} {good : α → Prop}
    {state state' : Parser → Prop} (h : Leaves bad a good state)
    (later : ∀ q, state q → state' q) : Leaves bad a good state' := by
  cases a with
  | ok parsed => exact ⟨h.1, later _ h.2⟩
  | error failure => exact h

namespace Offers

variable {kind : TokenKind} {bad : Failure → Prop} {good : β → Prop}

theorem descend (h : p.Offers kinds) : p.descend.Offers kinds := by
  obtain ⟨words, holds, spelled, denote⟩ := h
  exact ⟨words, holds.descend, spelled, denote⟩

theorem ascend (h : p.Offers kinds) : p.ascend.Offers kinds := by
  obtain ⟨words, holds, spelled, denote⟩ := h
  exact ⟨words, holds.ascend, spelled, denote⟩

theorem first (h : p.Offers (kind :: kinds)) :
    ∃ lexeme words, p.Holds ((kind, lexeme) :: words) ∧ kind.Denotes lexeme ∧
      ∀ q : Parser, q.Holds words → q.Offers kinds := by
  obtain ⟨words, holds, spelled, denote⟩ := h
  cases words with
  | nil => cases spelled
  | cons word words =>
    obtain ⟨rfl, rfl⟩ := List.cons.inj spelled
    refine ⟨word.2, words, holds, denote word (List.mem_cons_self ..), fun q left => ?_⟩
    exact ⟨words, left, rfl, fun w inside => denote w (List.mem_cons_of_mem _ inside)⟩

theorem peek_bind (h : p.Offers (kind :: kinds)) {f : Token → Attempt β}
    (rest : ∀ span, Yields bad (f ⟨kind, span⟩) good) : Yields bad (p.peek >>= f) good := by
  obtain ⟨lexeme, words, holds, _⟩ := h.first
  exact holds.peek_bind rest

theorem peek_end_bind (h : p.Offers []) {f : Token → Attempt β}
    (rest : ∀ token : Token, token.kind = .eof → Yields bad (f token) good) :
    Yields bad (p.peek >>= f) good := by
  obtain ⟨words, holds, spelled, _⟩ := h
  rw [List.map_eq_nil_iff] at spelled
  rw [spelled] at holds
  exact holds.peek_end_bind rest

theorem next_bind (h : p.Offers (kind :: kinds)) {atEnd : SyntaxError}
    {f : Parsed p.size Token → Attempt β}
    (rest : ∀ span q shorter, kind.Denotes (p.lexeme ⟨kind, span⟩) → q.Offers kinds →
      Yields bad (f ⟨⟨kind, span⟩, q, shorter⟩) good) :
    Yields bad (p.next atEnd >>= f) good := by
  obtain ⟨lexeme, words, holds, denotes, others⟩ := h.first
  refine holds.lexed_bind fun span q shorter spelled left => ?_
  rw [← spelled] at denotes
  exact rest span q shorter denotes (others q left)

theorem expect_bind (h : p.Offers (kind :: kinds)) {f : Parsed p.size Token → Attempt β}
    (rest : ∀ token q shorter, q.Offers kinds → Yields bad (f ⟨token, q, shorter⟩) good) :
    Yields bad (p.expect kind >>= f) good := by
  obtain ⟨lexeme, words, holds, _, others⟩ := h.first
  exact holds.expect_bind fun span q shorter left => rest _ q shorter (others q left)

theorem expectIdent_bind (h : p.Offers (.ident :: kinds)) {f : Parsed p.size Ident → Attempt β}
    (rest : ∀ ident q shorter, q.Offers kinds → Yields bad (f ⟨ident, q, shorter⟩) good) :
    Yields bad (p.expectIdent >>= f) good := by
  obtain ⟨lexeme, words, holds, _, others⟩ := h.first
  exact holds.expectIdent_bind fun span q shorter left => rest _ q shorter (others q left)

theorem takeIf_bind (h : p.Offers (kind :: kinds)) {accept : Token → Option α}
    {f : Option (Parsed p.size α) → Attempt β}
    (accepts : ∀ span, ∃ value, accept ⟨kind, span⟩ = some value)
    (rest : ∀ value q shorter, q.Offers kinds →
      Yields bad (f (some ⟨value, q, shorter⟩)) good) :
    Yields bad (p.takeIf? accept >>= f) good := by
  obtain ⟨lexeme, words, holds, _, others⟩ := h.first
  choose value accepted using accepts
  exact holds.takeIf_bind accepted fun span q shorter left => rest _ q shorter (others q left)

theorem eat_bind (h : p.Offers (kind :: kinds)) {f : Option (Parsed p.size Token) → Attempt β}
    (rest : ∀ token q shorter, q.Offers kinds →
      Yields bad (f (some ⟨token, q, shorter⟩)) good) :
    Yields bad (p.eat? kind >>= f) good :=
  h.takeIf_bind (fun _ => ⟨_, if_pos rfl⟩) rest

theorem leave_bind (h : p.Offers kinds) {accept : Token → Option α}
    {f : Option (Parsed p.size α) → Attempt β}
    (refuses : ∀ kind ∈ kinds.head?, ∀ span, accept ⟨kind, span⟩ = none)
    (rest : Yields bad (f none) good) : Yields bad (p.takeIf? accept >>= f) good := by
  obtain ⟨words, holds, rfl, _⟩ := h
  refine holds.leave_bind (fun word inside => refuses word.1 ?_) rest
  rw [List.head?_map]
  exact Option.mem_map_of_mem Prod.fst inside

theorem pass_bind (h : p.Offers kinds) {f : Option (Parsed p.size Token) → Attempt β}
    (other : ∀ k ∈ kinds.head?, k ≠ kind) (rest : Yields bad (f none) good) :
    Yields bad (p.eat? kind >>= f) good :=
  h.leave_bind (fun k here _ => if_neg (other k here)) rest

end Offers

theorem typeExpr_leads {p : Parser} {t rest : List TokenKind} (type : Derives .type t)
    (h : p.Offers (t ++ rest)) : Leads p.typeExpr rest := by
  rw [typeExpr]
  cases type with
  | typeName known =>
    simp only [typeKinds, List.mem_cons, List.not_mem_nil, or_false] at known
    rcases known with rfl | rfl | rfl | rfl | rfl <;>
      exact h.next_bind fun _ q _ _ left => ⟨trivial, left⟩
  | listType element =>
    simp only [List.cons_append, List.append_assoc] at h
    refine h.next_bind fun _ q _ _ left => ?_
    refine left.expect_bind fun _ q _ left => ?_
    refine (typeExpr_leads element left).bind fun _ q _ _ left => ?_
    exact left.expect_bind fun _ q _ left => ⟨trivial, left⟩
  | mapType key value =>
    simp only [List.cons_append, List.append_assoc] at h
    refine h.next_bind fun _ q _ _ left => ?_
    refine left.expect_bind fun _ q _ left => ?_
    refine (typeExpr_leads key left).bind fun _ q _ _ left => ?_
    refine left.expect_bind fun _ q _ left => ?_
    exact (typeExpr_leads value left).bind fun _ q _ _ left => ⟨trivial, left⟩
termination_by p.size

/-- An expression is read as what its first token makes of it. -/
theorem Offers.expression {p : Parser} {k : TokenKind} {kinds rest : List TokenKind}
    (h : p.Offers (k :: kinds)) (inner : Leads (p.descend.expressionFrom k) rest) :
    Leads p.expression rest := by
  rw [Parser.expression]
  refine h.peek_bind fun _ => ?_
  split
  next => exact rfl
  next =>
    dsimp only
    cases eq : p.descend.expressionFrom k with
    | ok parsed =>
      rw [eq] at inner
      exact ⟨trivial, inner.2.ascend⟩
    | error failure =>
      rw [eq] at inner
      exact inner

theorem expressionFrom_of_testKinds {k : TokenKind} (known : k ∈ testKinds) (p : Parser) :
    p.expressionFrom k = p.operation 0 := by
  rw [expressionFrom.eq_def]
  split
  case h_7 => rfl
  all_goals exact absurd known (by decide)

/-! ### Operators -/

/-- An operator that is still to come binds less than the given power. -/
def Weak (power : Nat) (c : List TokenKind) : Prop :=
  ∀ k ∈ c.head?, ∀ op ∈ binaryOp? k, op.leftPower < power

/-- A chain is left in front of the rest. -/
def Chained (power : Nat) (rest : List TokenKind) (p : Parser) : Prop :=
  ∃ c, Chain c ∧ Weak power c ∧ p.Offers (c ++ rest)

theorem binaryOp?_of_endKinds {k : TokenKind} (known : k ∈ endKinds) : binaryOp? k = none := by
  simp only [endKinds, List.mem_cons, List.not_mem_nil, or_false] at known
  rcases known with rfl | rfl | rfl | rfl | rfl | rfl | rfl | rfl | rfl <;> rfl

theorem exists_binaryOp {k : TokenKind} (known : k ∈ binaryKinds) :
    ∃ op, binaryOp? k = some op := by
  simp only [binaryKinds, List.mem_cons, List.not_mem_nil, or_false] at known
  rcases known with rfl | rfl | rfl | rfl | rfl | rfl | rfl | rfl | rfl | rfl | rfl | rfl | rfl <;>
    exact ⟨_, rfl⟩

theorem exists_assignmentOp {k : TokenKind} (known : k ∈ assignmentKinds) :
    ∃ op, assignmentOp? k = some op := by
  simp only [assignmentKinds, List.mem_cons, List.not_mem_nil, or_false] at known
  rcases known with rfl | rfl | rfl | rfl | rfl | rfl <;> exact ⟨_, rfl⟩

/-- No operator binds with less than no power at all. -/
theorem Chained.offers {p : Parser} {rest : List TokenKind} (h : Chained 0 rest p) :
    p.Offers rest := by
  obtain ⟨c, chain, weak, left⟩ := h
  cases chain with
  | nil => exact left
  | cons known =>
    obtain ⟨op, eq⟩ := exists_binaryOp known
    exact absurd (weak _ rfl op eq) (Nat.not_lt_zero _)

mutual

theorem statement_leads {p : Parser} {s rest : List TokenKind} (statement : Derives .statement s)
    (closed : Closed rest) (h : p.Offers (s ++ rest)) : Leads p.statement rest := by
  rw [Parser.statement]
  cases statement with
  | exit known =>
    refine h.takeIf_bind (fun _ => ?_) fun (kind, token) q _ left => ?_
    · simp only [exitKinds, List.mem_cons, List.not_mem_nil, or_false] at known
      rcases known with rfl | rfl <;> exact ⟨_, rfl⟩
    · cases rest with
      | nil =>
        refine left.peek_end_bind fun following kind => ?_
        rw [kind]
        exact ⟨trivial, left⟩
      | cons k rest =>
        refine left.peek_bind fun _ => ?_
        rcases closed k rfl with rfl | rfl <;> exact ⟨trivial, left⟩
  | exitWith known value =>
    refine h.takeIf_bind (fun _ => ?_) fun (kind, token) q _ left => ?_
    · simp only [exitKinds, List.mem_cons, List.not_mem_nil, or_false] at known
      rcases known with rfl | rfl <;> exact ⟨_, rfl⟩
    · have inner := expression_leads value closed.ended left
      obtain ⟨k, t, rfl, known⟩ := value.first_expression
      refine left.peek_bind fun _ => ?_
      dsimp only
      split
      case h_4 => exact inner.bind fun _ q _ _ left => ⟨trivial, left⟩
      all_goals exact absurd known (by decide)
  | evaluated value =>
    have inner := expression_leads value closed.ended h
    obtain ⟨k, t, rfl, known⟩ := value.first_expression
    refine h.leave_bind (fun kind inside _ => ?_) inner
    cases inside
    dsimp only
    split
    case h_3 => rfl
    all_goals exact absurd known (by decide)
termination_by p.size * 8 + 4

theorem expression_leads {p : Parser} {e rest : List TokenKind} (expression : Derives .expression e)
    (ended : Ended rest) (h : p.Offers (e ++ rest)) : Leads p.expression rest := by
  cases expression with
  | declared declaration =>
    have inner := declaration_leads declaration ended h.descend
    obtain ⟨k, t, rfl, known⟩ := declaration.first_declaration
    apply Offers.expression h
    simp only [bindingKinds, List.mem_cons, List.not_mem_nil, or_false] at known
    rcases known with rfl | rfl <;> rw [expressionFrom] <;>
      exact inner.bind fun _ q _ _ left => ⟨trivial, left⟩
  | assigned assignment =>
    have inner := assignment_leads assignment ended h.descend
    cases assignment
    apply Offers.expression h
    rw [expressionFrom]
    exact inner
  | branched conditional =>
    have inner := conditional_leads conditional ended h.descend
    cases conditional
    all_goals
      apply Offers.expression h
      rw [expressionFrom]
      exact inner.bind fun _ q _ _ left => ⟨trivial, left⟩
  | looped loop =>
    have inner := loop_leads loop h.descend
    cases loop
    apply Offers.expression h
    rw [expressionFrom]
    exact inner
  | grouped block =>
    have inner := block_leads block h.descend
    obtain ⟨r, rfl, _⟩ := derives_block_iff.1 block
    apply Offers.expression h
    rw [expressionFrom]
    exact inner.bind fun _ q _ _ left => ⟨trivial, left⟩
  | tested test =>
    have inner := operation_leads 0 test ended h.descend
    obtain ⟨k, t, rfl, known⟩ := test.first_test
    apply Offers.expression h
    rw [expressionFrom_of_testKinds known]
    exact inner.after fun _ left => left.offers
termination_by p.size * 8 + 3

theorem block_leads {p : Parser} {b rest : List TokenKind} (block : Derives .block b)
    (h : p.Offers (b ++ rest)) : Leads p.block rest := by
  rw [Parser.block]
  obtain ⟨r, rfl, statements⟩ := derives_block_iff.1 block
  refine h.expect_bind fun _ q _ left => ?_
  exact (blockRest_leads statements left).bind fun _ q _ _ left => ⟨trivial, left⟩
termination_by p.size * 8

theorem blockRest_leads {p : Parser} {r rest : List TokenKind} (statements : BlockRest r)
    (h : p.Offers (r ++ rest)) : Leads p.blockRest rest := by
  rw [blockRest]
  cases statements with
  | close =>
    refine h.peek_bind fun _ => ?_
    exact h.expect_bind fun _ q _ left => ⟨trivial, left⟩
  | skip others =>
    refine h.peek_bind fun _ => ?_
    refine h.expect_bind fun _ q _ left => ?_
    exact (blockRest_leads others left).bind fun _ q _ _ left => ⟨trivial, left⟩
  | last statement =>
    simp only [List.append_assoc, List.cons_append, List.nil_append] at h
    have inner := statement_leads statement (Closed.of_brace rest) h
    obtain ⟨k, t, rfl, known⟩ := statement.first_statement
    refine h.peek_bind fun _ => ?_
    dsimp only
    split
    case h_4 =>
      refine inner.bind fun _ q _ _ left => ?_
      refine left.pass_bind (by rintro _ ⟨⟩; decide) ?_
      exact left.expect_bind fun _ q _ left => ⟨trivial, left⟩
    all_goals exact absurd known (by decide)
  | more statement others =>
    simp only [List.append_assoc, List.cons_append] at h
    have inner := statement_leads statement (Closed.of_semicolon _) h
    obtain ⟨k, t, rfl, known⟩ := statement.first_statement
    refine h.peek_bind fun _ => ?_
    dsimp only
    split
    case h_4 =>
      refine inner.bind fun _ q _ _ left => ?_
      refine left.eat_bind fun _ q _ left => ?_
      exact (blockRest_leads others left).bind fun _ q _ _ left => ⟨trivial, left⟩
    all_goals exact absurd known (by decide)
termination_by p.size * 8 + 5

theorem declaration_leads {p : Parser} {d rest : List TokenKind}
    (declaration : Derives .declaration d) (ended : Ended rest) (h : p.Offers (d ++ rest)) :
    Leads p.declaration rest := by
  rw [Parser.declaration]
  cases declaration with
  | declaration known type value =>
    simp only [List.cons_append, List.append_assoc] at h
    refine h.next_bind fun _ q _ _ left => ?_
    simp only [bindingKinds, List.mem_cons, List.not_mem_nil, or_false] at known
    rcases known with rfl | rfl
    all_goals
      refine left.expectIdent_bind fun _ q _ left => ?_
      refine (typeExpr_leads type left).bind fun _ q _ _ left => ?_
      refine left.expect_bind fun _ q _ left => ?_
      exact (expression_leads value ended left).bind fun _ q _ _ left => ⟨trivial, left⟩
termination_by p.size * 8

theorem assignment_leads {p : Parser} {a rest : List TokenKind}
    (assignment : Derives .assignment a) (ended : Ended rest) (h : p.Offers (a ++ rest)) :
    Leads p.assignment rest := by
  rw [Parser.assignment]
  cases assignment with
  | assignment known value =>
    refine h.expect_bind fun _ q _ left => ?_
    refine left.expectIdent_bind fun _ q _ left => ?_
    refine left.next_bind fun _ q _ _ left => ?_
    obtain ⟨op, eq⟩ := exists_assignmentOp known
    dsimp only
    rw [eq]
    exact (expression_leads value ended left).bind fun _ q _ _ left => ⟨trivial, left⟩
termination_by p.size * 8

theorem conditional_leads {p : Parser} {c rest : List TokenKind}
    (conditional : Derives .conditional c) (ended : Ended rest) (h : p.Offers (c ++ rest)) :
    Leads p.conditional rest := by
  rw [Parser.conditional]
  cases conditional with
  | only condition body =>
    simp only [List.cons_append, List.append_assoc] at h
    refine h.expect_bind fun _ q _ left => ?_
    refine (expression_leads condition (.of_mem (by decide) _) left).bind fun _ q _ _ left => ?_
    refine left.expect_bind fun _ q _ left => ?_
    refine (block_leads body left).bind fun _ q _ _ left => ?_
    refine left.pass_bind ?_ ⟨trivial, left⟩
    rintro k first rfl
    exact absurd (ended _ first) (by decide)
  | withElse condition body otherwise =>
    simp only [List.cons_append, List.append_assoc] at h
    refine h.expect_bind fun _ q _ left => ?_
    refine (expression_leads condition (.of_mem (by decide) _) left).bind fun _ q _ _ left => ?_
    refine left.expect_bind fun _ q _ left => ?_
    refine (block_leads body left).bind fun _ q _ _ left => ?_
    refine left.eat_bind fun _ q _ left => ?_
    have inner := block_leads otherwise left
    obtain ⟨r, rfl, _⟩ := derives_block_iff.1 otherwise
    refine left.peek_bind fun _ => ?_
    exact inner.bind fun _ q _ _ left => ⟨trivial, left⟩
  | withElseIf condition body next =>
    simp only [List.cons_append, List.append_assoc] at h
    refine h.expect_bind fun _ q _ left => ?_
    refine (expression_leads condition (.of_mem (by decide) _) left).bind fun _ q _ _ left => ?_
    refine left.expect_bind fun _ q _ left => ?_
    refine (block_leads body left).bind fun _ q _ _ left => ?_
    refine left.eat_bind fun _ q _ left => ?_
    have inner := conditional_leads next ended left
    obtain ⟨r, rfl⟩ := next.first_conditional
    refine left.peek_bind fun _ => ?_
    exact inner.bind fun _ q _ _ left => ⟨trivial, left⟩
termination_by p.size * 8

theorem loop_leads {p : Parser} {l rest : List TokenKind} (loop : Derives .loop l)
    (h : p.Offers (l ++ rest)) : Leads p.loop rest := by
  rw [Parser.loop]
  cases loop with
  | loop vars body =>
    simp only [List.cons_append, List.append_assoc] at h
    refine h.expect_bind fun _ q _ left => ?_
    obtain ⟨r, rfl, _⟩ := derives_block_iff.1 body
    refine (declarations_leads vars left).bind fun _ q _ _ left => ?_
    exact (block_leads body left).bind fun _ q _ _ left => ⟨trivial, left⟩
termination_by p.size * 8

/-- The declarations of a loop end at its body. -/
theorem declarations_leads {p : Parser} {d rest : List TokenKind}
    (vars : Derives .declarations d) (h : p.Offers (d ++ .symbol .leftBrace :: rest)) :
    Leads p.declarations (.symbol .leftBrace :: rest) := by
  rw [declarations]
  cases vars with
  | lastDeclaration declaration =>
    refine (declaration_leads declaration (.of_mem (by decide) _) h).bind fun _ q _ _ left => ?_
    exact left.pass_bind (by rintro _ ⟨⟩; decide) ⟨trivial, left⟩
  | moreDeclarations declaration others =>
    simp only [List.append_assoc, List.cons_append] at h
    refine (declaration_leads declaration (.of_mem (by decide) _) h).bind fun _ q _ _ left => ?_
    refine left.eat_bind fun _ q _ left => ?_
    exact (declarations_leads others left).bind fun _ q _ _ left => ⟨trivial, left⟩
termination_by p.size * 8 + 1

/-- An operation takes in the front of a test, up to an operator that binds too little. -/
theorem operation_leads {p : Parser} (power : Nat) {t rest : List TokenKind}
    (test : Derives .test t) (ended : Ended rest) (h : p.Offers (t ++ rest)) :
    Leaves TooDeep (p.operation power) (fun _ => True) (Chained power rest) := by
  have inner := operand_leads test ended h.descend
  obtain ⟨k, u, rfl, _⟩ := test.first_test
  rw [operation]
  refine h.peek_bind fun _ => ?_
  split
  next => exact rfl
  next =>
    refine inner.bind fun lhs q shorter _ left => ?_
    obtain ⟨c, chain, left⟩ := left
    have shorter : q.size < p.size := shorter
    refine (operationRest_leads power lhs chain ended left).bind fun _ q _ _ left => ?_
    obtain ⟨c, chain, weak, left⟩ := left
    exact ⟨trivial, c, chain, weak, left.ascend⟩
termination_by p.size * 8 + 1

theorem operationRest_leads {p : Parser} (power : Nat) (lhs : Expr) {c rest : List TokenKind}
    (chain : Chain c) (ended : Ended rest) (h : p.Offers (c ++ rest)) :
    Leaves TooDeep (p.operationRest power lhs) (fun _ => True) (Chained power rest) := by
  rw [operationRest]
  cases chain with
  | nil =>
    refine h.leave_bind (fun kind first _ => ?_) ⟨trivial, [], .nil, nofun, h⟩
    rw [binaryOp?_of_endKinds (ended _ first)]
    rfl
  | cons known test =>
    obtain ⟨op, eq⟩ := exists_binaryOp known
    by_cases strong : power ≤ op.leftPower
    · refine h.takeIf_bind (fun _ => ⟨op, ?_⟩) fun op q _ left => ?_
      · rw [eq]
        exact Option.filter_some_pos (decide_eq_true strong)
      · refine (operation_leads op.rightPower test ended left).bind fun rhs q _ _ left => ?_
        obtain ⟨c, chain, _, left⟩ := left
        refine (operationRest_leads power _ chain ended left).bind fun _ q _ _ left => ?_
        exact ⟨trivial, left⟩
    · refine h.leave_bind (fun kind first _ => ?_) ⟨trivial, _, .cons known test, ?_, h⟩
      · cases first
        rw [eq]
        exact Option.filter_some_neg (by simpa using strong)
      · rintro _ ⟨⟩ other same
        rw [eq] at same
        cases same
        exact Nat.lt_of_not_le strong
termination_by p.size * 8

/-- An operand takes in an atom, or a prefix operator and all that binds more tightly. -/
theorem operand_leads {p : Parser} {t rest : List TokenKind} (test : Derives .test t)
    (ended : Ended rest) (h : p.Offers (t ++ rest)) :
    Leaves TooDeep p.operand (fun _ => True) fun q => ∃ c, Chain c ∧ q.Offers (c ++ rest) := by
  obtain ⟨a, c, rfl, operand, chain⟩ := test.exists_chain
  rw [List.append_assoc] at h
  rw [Parser.operand]
  cases operand with
  | unary known inner =>
    have whole := inner.chained chain
    rw [List.cons_append, ← List.append_assoc] at h
    simp only [unaryKinds, List.mem_cons, List.not_mem_nil, or_false] at known
    rcases known with rfl | rfl
    all_goals
      refine h.next_bind fun _ q _ _ left => ?_
      refine (operation_leads _ whole ended left).bind fun _ q _ _ left => ?_
      obtain ⟨c, chain, _, left⟩ := left
      exact ⟨trivial, c, chain, left⟩
  | plain atom =>
    cases atom with
    | literal known =>
      simp only [literalKinds, List.mem_cons, List.not_mem_nil, or_false] at known
      rcases known with rfl | rfl | rfl | rfl | rfl
      case inr.inr.inr.inl | inr.inr.inr.inr =>
        exact h.next_bind fun _ q _ _ left => ⟨trivial, c, chain, left⟩
      all_goals
        refine h.next_bind fun _ q _ denotes left => ?_
        obtain ⟨value, eq⟩ := denotes
        dsimp only
        rw [eq]
        exact ⟨trivial, c, chain, left⟩
    | list items =>
      simp only [List.cons_append, List.append_assoc] at h
      refine h.next_bind fun _ q _ _ left => ?_
      refine (expressions_leads (.inr rfl) items left).bind fun _ q _ _ left => ?_
      exact ⟨trivial, c, chain, left⟩
    | map entries =>
      simp only [List.cons_append, List.append_assoc] at h
      refine h.next_bind fun _ q _ _ left => ?_
      refine (entries_leads entries left).bind fun _ q _ _ left => ?_
      exact ⟨trivial, c, chain, left⟩
    | name =>
      refine h.next_bind fun _ q _ _ left => ?_
      exact left.pass_bind (chain.uncalled ended) ⟨trivial, c, chain, left⟩
    | call arguments =>
      simp only [List.cons_append, List.append_assoc] at h
      refine h.next_bind fun _ q _ _ left => ?_
      refine left.eat_bind fun _ q _ left => ?_
      refine (expressions_leads (.inl rfl) arguments left).bind fun _ q _ _ left => ?_
      exact ⟨trivial, c, chain, left⟩
    | bracket inner =>
      simp only [List.cons_append, List.append_assoc] at h
      refine h.next_bind fun _ q _ _ left => ?_
      refine (expression_leads inner (.of_mem (by decide) _) left).bind fun _ q _ _ left => ?_
      exact left.expect_bind fun _ q _ left => ⟨trivial, c, chain, left⟩
termination_by p.size * 8

theorem expressions_leads {p : Parser} {closing : TokenKind}
    (closes : closing = .symbol .rightParen ∨ closing = .symbol .rightBracket)
    {r rest : List TokenKind} (row : Derives .row r) (h : p.Offers (r ++ closing :: rest)) :
    Leads (p.expressions closing) rest := by
  have apart {e others : List TokenKind} (item : Derives .expression e) :
      ∀ k ∈ (e ++ others).head?, k ≠ closing := by
    obtain ⟨k, t, rfl, known⟩ := item.first_expression
    rintro _ ⟨⟩ rfl
    rcases closes with rfl | rfl <;> exact absurd known (by decide)
  rw [expressions]
  cases row with
  | noItem => exact h.eat_bind fun _ q _ left => ⟨trivial, left⟩
  | lastItem item =>
    have ended : Ended (closing :: rest) :=
      .of_mem (by rcases closes with rfl | rfl <;> decide) rest
    refine h.pass_bind (apart item) ?_
    refine (expression_leads item ended h).bind fun _ q _ _ left => ?_
    refine left.pass_bind ?_ (left.expect_bind fun _ q _ left => ⟨trivial, left⟩)
    rintro _ ⟨⟩
    rcases closes with rfl | rfl <;> decide
  | moreItems item others =>
    simp only [List.append_assoc, List.cons_append] at h
    refine h.pass_bind (apart item) ?_
    refine (expression_leads item (.of_mem (by decide) _) h).bind fun _ q _ _ left => ?_
    refine left.eat_bind fun _ q _ left => ?_
    exact (expressions_leads closes others left).bind fun _ q _ _ left => ⟨trivial, left⟩
termination_by p.size * 8 + 4

theorem entries_leads {p : Parser} {r rest : List TokenKind} (entries : Derives .entries r)
    (h : p.Offers (r ++ .symbol .rightTriangle :: rest)) : Leads p.entries rest := by
  have apart {e others : List TokenKind} (key : Derives .expression e) :
      ∀ k ∈ (e ++ others).head?, k ≠ .symbol .rightTriangle := by
    obtain ⟨k, t, rfl, known⟩ := key.first_expression
    rintro _ ⟨⟩ rfl
    exact absurd known (by decide)
  rw [Parser.entries]
  cases entries with
  | noEntry => exact h.eat_bind fun _ q _ left => ⟨trivial, left⟩
  | lastEntry key value =>
    simp only [List.append_assoc, List.cons_append] at h
    refine h.pass_bind (apart key) ?_
    refine (expression_leads key (.of_mem (by decide) _) h).bind fun _ q _ _ left => ?_
    refine left.expect_bind fun _ q _ left => ?_
    refine (expression_leads value (.of_mem (by decide) _) left).bind fun _ q _ _ left => ?_
    refine left.pass_bind (by rintro _ ⟨⟩; decide) ?_
    exact left.expect_bind fun _ q _ left => ⟨trivial, left⟩
  | moreEntries key value others =>
    simp only [List.append_assoc, List.cons_append] at h
    refine h.pass_bind (apart key) ?_
    refine (expression_leads key (.of_mem (by decide) _) h).bind fun _ q _ _ left => ?_
    refine left.expect_bind fun _ q _ left => ?_
    refine (expression_leads value (.of_mem (by decide) _) left).bind fun _ q _ _ left => ?_
    refine left.eat_bind fun _ q _ left => ?_
    exact (entries_leads others left).bind fun _ q _ _ left => ⟨trivial, left⟩
termination_by p.size * 8 + 4

end

/-- A program is read to its end. -/
theorem program_leads {p : Parser} {kinds : List TokenKind} (program : Derives .program kinds)
    (h : p.Offers kinds) : Yields TooDeep p.program fun _ => True := by
  rw [Parser.program]
  cases program with
  | emptyProgram =>
    refine h.peek_end_bind fun token kind => ?_
    rw [kind]
    trivial
  | skipped others =>
    refine h.peek_bind fun _ => ?_
    refine h.expect_bind fun _ q _ left => ?_
    exact (program_leads others left).bind fun _ _ => trivial
  | executed statement others =>
    have inner := statement_leads statement (Closed.of_semicolon _) h
    obtain ⟨k, t, rfl, known⟩ := statement.first_statement
    refine h.peek_bind fun _ => ?_
    dsimp only
    split
    case h_3 =>
      refine inner.bind fun _ q _ _ left => ?_
      refine left.expect_bind fun _ q _ left => ?_
      exact (program_leads others left).bind fun _ _ => trivial
    all_goals exact absurd known (by decide)
termination_by p.size

end Parser

end ExprLang
