import ExprLang.Proofs.Nesting.Bound
import ExprLang.Proofs.RoundTrip.Rendered

set_option autoImplicit false

/-!
Three families of sources that are read however long they are: types inside of types, conditions
after `else`, and operands joined to the left. Each is read at a few levels, and its tree is as high
as the source is long.
-/

namespace ExprLang

namespace Parser

variable {α β : Type} {n limit depth : Nat} {words ws : List Word} {p : Parser}

/-- Before tokens of the same kinds as the words, so deep in, under the limit. In a long source
their lexemes may be others. -/
structure Ready (limit depth : Nat) (words : List Word) (p : Parser) : Prop where
  tokens : ∃ tokens : List Token, p.rest = tokens.map .ok ∧ tokens.map (·.kind) = words.map (·.1)
  eof : p.eof.kind = .eof
  here : p.At limit depth

/-- Reading does not fail, gives a good result and leaves the words. -/
abbrev Arrives (limit depth : Nat) (a : Attempt (Parsed n α)) (good : α → Prop)
    (words : List Word) : Prop :=
  Leaves (fun _ => False) a good (Ready limit depth words)

namespace Ready

theorem descend (h : p.Ready limit depth words) : p.descend.Ready limit (depth + 1) words :=
  ⟨h.tokens, h.eof, h.here.descend⟩

theorem ascend (h : p.Ready limit (depth + 1) words) : p.ascend.Ready limit depth words :=
  ⟨h.tokens, h.eof, h.here.ascend⟩

theorem fits (h : p.Ready limit depth words) (room : depth + 1 ≤ limit) :
    ¬ p.descend.isTooDeep = true := by
  unfold isTooDeep
  rw [h.here.descend.limit, h.here.descend.depth]
  simpa using room

theorem first {word : Word} (h : p.Ready limit depth (word :: ws)) :
    ∃ token rest, p.rest = .ok token :: rest ∧ token.kind = word.1 ∧
      ({ p with rest } : Parser).Ready limit depth ws := by
  obtain ⟨tokens, here, kinds⟩ := h.tokens
  cases tokens with
  | nil => cases kinds
  | cons token tokens =>
    obtain ⟨kind, others⟩ := List.cons.inj kinds
    exact ⟨token, _, here, kind, ⟨tokens, rfl, others⟩, h.eof, h.here.limit, h.here.depth⟩

theorem rest_nil (h : p.Ready limit depth []) : p.rest = [] := by
  obtain ⟨tokens, here, kinds⟩ := h.tokens
  rw [here, List.map_eq_nil_iff.1 kinds, List.map_nil]

theorem next {word : Word} (h : p.Ready limit depth (word :: ws)) (atEnd : SyntaxError) :
    Arrives limit depth (p.next atEnd) (fun token => token.kind = word.1) ws := by
  obtain ⟨token, rest, eq, kind, left⟩ := h.first
  rw [next_of_rest eq]
  exact ⟨kind, left⟩

theorem expect {kind : TokenKind} {lexeme : String}
    (h : p.Ready limit depth ((kind, lexeme) :: ws)) :
    Arrives limit depth (p.expect kind) (fun _ => True) ws := by
  refine (h.next _).bind fun token q _ same left => ?_
  dsimp only
  rw [if_pos same]
  exact ⟨trivial, left⟩

section Bind

variable {good : β → Prop}

theorem peek_bind {word : Word} (h : p.Ready limit depth (word :: ws)) {f : Token → Attempt β}
    (rest : ∀ token : Token, token.kind = word.1 → Yields (fun _ => False) (f token) good) :
    Yields (fun _ => False) (p.peek >>= f) good := by
  obtain ⟨token, _, eq, kind, _⟩ := h.first
  rw [peek_of_rest eq]
  exact rest token kind

theorem peek_end_bind (h : p.Ready limit depth []) {f : Token → Attempt β}
    (rest : ∀ token : Token, token.kind = .eof → Yields (fun _ => False) (f token) good) :
    Yields (fun _ => False) (p.peek >>= f) good := by
  rw [peek_of_nil h.rest_nil]
  exact rest p.eof h.eof

theorem eat_bind {kind : TokenKind} {lexeme : String}
    (h : p.Ready limit depth ((kind, lexeme) :: ws))
    {f : Option (Parsed p.size Token) → Attempt β}
    (found : ∀ token q shorter, q.Ready limit depth ws →
      Yields (fun _ => False) (f (some ⟨token, q, shorter⟩)) good) :
    Yields (fun _ => False) (p.eat? kind >>= f) good := by
  obtain ⟨token, rest, eq, same, left⟩ := h.first
  rw [eat?, takeIf_of_rest eq, if_pos same]
  exact found _ _ _ left

/-- A token that is not accepted stays. -/
theorem leave_bind {word : Word} (h : p.Ready limit depth (word :: ws)) {accept : Token → Option α}
    {f : Option (Parsed p.size α) → Attempt β}
    (refuses : ∀ token : Token, token.kind = word.1 → accept token = none)
    (rest : Yields (fun _ => False) (f none) good) :
    Yields (fun _ => False) (p.takeIf? accept >>= f) good := by
  obtain ⟨token, _, eq, kind, _⟩ := h.first
  rw [takeIf_of_rest eq, refuses token kind]
  exact rest

end Bind

end Ready

/-- An expression is what its first word makes of it, if there is room. -/
theorem Ready.expression {word : Word} {good : Expr → Prop}
    (h : p.Ready limit depth (word :: words)) (room : depth + 1 ≤ limit)
    (inner : Arrives limit (depth + 1) (p.descend.expressionFrom word.1) good ws) :
    Arrives limit depth p.expression good ws := by
  rw [Parser.expression]
  refine h.peek_bind fun token kind => ?_
  rw [if_neg (h.fits room), kind]
  cases eq : p.descend.expressionFrom word.1 with
  | ok parsed =>
    rw [eq] at inner
    exact ⟨inner.1, inner.2.ascend⟩
  | error failure =>
    rw [eq] at inner
    exact inner

/-- An operation is a first operand and what is joined to it, if there is room. -/
theorem Ready.operation {word : Word} {middle : List Word} {good good' : Expr → Prop} {power : Nat}
    (h : p.Ready limit depth (word :: words)) (room : depth + 1 ≤ limit)
    (first : Arrives limit (depth + 1) p.descend.operand good middle)
    (rest : ∀ (q : Parser) (lhs : Expr), good lhs → q.Ready limit (depth + 1) middle →
      Arrives limit (depth + 1) (q.operationRest power lhs) good' ws) :
    Arrives limit depth (p.operation power) good' ws := by
  rw [Parser.operation]
  refine h.peek_bind fun _ _ => ?_
  rw [if_neg (h.fits room)]
  refine first.bind fun lhs q _ fine left => ?_
  refine (rest q lhs fine left).bind fun e q _ fine left => ?_
  exact ⟨fine, left.ascend⟩

/-- A program of one statement, which is an expression. -/
theorem Ready.program {word : Word} {good : Expr → Prop} (h : p.Ready limit depth (word :: words))
    (opens : word.1.opens = true)
    (first : Arrives limit depth p.expression good [Symbol.semicolon.word]) :
    Arrives limit depth p.program (fun r => ∃ e, r = [e] ∧ good e) [] := by
  rw [Parser.program]
  refine h.peek_bind fun token kind => ?_
  rw [kind]
  split
  next kind => rw [kind] at opens; cases opens
  next kind => rw [kind] at opens; cases opens
  next =>
    have statement : Arrives limit depth p.statement good [Symbol.semicolon.word] := by
      rw [Parser.statement]
      refine h.leave_bind (fun token same => ?_) first
      rw [same]
      split
      next kind => rw [kind] at opens; cases opens
      next kind => rw [kind] at opens; cases opens
      next => rfl
    refine statement.bind fun e q _ fine left => ?_
    refine left.expect.bind fun _ q _ _ left => ?_
    have ended : Arrives limit depth q.program (· = []) [] := by
      rw [Parser.program]
      refine left.peek_end_bind fun token eof => ?_
      simp only [eof]
      exact ⟨rfl, left⟩
    refine ended.bind fun rest q _ none left => ?_
    exact ⟨⟨e, congrArg (e :: ·) none, fine⟩, left⟩

/-! ### One word, `true` -/

theorem Ready.operand_true (h : p.Ready limit depth (Keyword.true.word :: ws)) :
    Arrives limit depth p.operand (fun e => e.heightBy .all = 1) ws := by
  rw [operand]
  refine (h.next _).bind fun token q _ kind left => ?_
  dsimp only
  rw [show token.kind = .keyword .true from kind]
  exact ⟨rfl, left⟩

/-- Nothing is joined where no operator follows that binds tightly enough. -/
theorem Ready.operationRest_stop {word : Word} (h : p.Ready limit depth (word :: ws)) {power : Nat}
    (lhs : Expr) (stop : (binaryOp? word.1).filter (power ≤ ·.leftPower) = none) :
    Arrives limit depth (p.operationRest power lhs) (· = lhs) (word :: ws) := by
  rw [operationRest]
  refine h.leave_bind (fun token kind => ?_) ⟨rfl, h⟩
  rw [kind]
  exact stop

theorem Ready.operation_true {word : Word}
    (h : p.Ready limit depth (Keyword.true.word :: word :: ws)) (room : depth + 1 ≤ limit)
    {power : Nat} (stop : (binaryOp? word.1).filter (power ≤ ·.leftPower) = none) :
    Arrives limit depth (p.operation power) (fun e => e.heightBy .all = 1) (word :: ws) := by
  refine h.operation room h.descend.operand_true fun q lhs one left => ?_
  refine (left.operationRest_stop lhs stop).imp fun e same => ?_
  rw [same]
  exact one

theorem Ready.expression_true {word : Word} (other : binaryOp? word.1 = none)
    (h : p.Ready limit depth (Keyword.true.word :: word :: ws)) (room : depth + 2 ≤ limit) :
    Arrives limit depth p.expression (fun e => e.heightBy .all = 1) (word :: ws) := by
  refine h.expression (by omega) ?_
  rw [expressionFrom.eq_def]
  refine h.descend.operation_true room ?_
  rw [other]
  rfl

/-! ### Types inside of types -/

end Parser

/-- So many list types inside of each other. -/
def TypeExpr.tower : Nat → TypeExpr
  | 0 => .int default
  | n + 1 => .list (tower n) default

namespace Parser

variable {α β : Type} {limit depth : Nat} {words ws : List Word} {p : Parser}

theorem Ready.typeExpr_tower (n : Nat) (h : p.Ready limit depth ((TypeExpr.tower n).words ws)) :
    Arrives limit depth p.typeExpr (fun t => t.heightBy .all = n + 1) ws := by
  induction n generalizing p ws with
  | zero =>
    rw [typeExpr]
    refine (Ready.next h _).bind fun token q _ kind left => ?_
    dsimp only
    rw [show token.kind = .keyword .int from kind]
    exact ⟨rfl, left⟩
  | succ n ih =>
    rw [typeExpr]
    refine (Ready.next h _).bind fun token q _ kind left => ?_
    dsimp only
    rw [show token.kind = .keyword .list from kind]
    refine left.expect.bind fun _ q _ _ left => ?_
    refine (ih left).bind fun element q _ height left => ?_
    refine left.expect.bind fun _ q _ _ left => ?_
    exact ⟨congrArg (· + 1) height, left⟩

theorem Ready.declaration_tower (n : Nat)
    (h : p.Ready limit depth (Keyword.var.word :: (.ident, "x") :: (TypeExpr.tower n).words
      (Keyword.is.word :: Keyword.true.word :: Symbol.semicolon.word :: ws)))
    (room : depth + 3 ≤ limit) :
    Arrives limit depth p.expression (fun e => n < e.heightBy .all)
      (Symbol.semicolon.word :: ws) := by
  refine h.expression (by omega) ?_
  rw [expressionFrom.eq_def]
  have declared : Arrives limit (depth + 1) p.descend.declaration (fun d => n < d.heightBy .all)
      (Symbol.semicolon.word :: ws) := by
    rw [declaration]
    refine (h.descend.next _).bind fun token q _ kind left => ?_
    dsimp only
    rw [show token.kind = .keyword .var from kind]
    have named : Arrives limit (depth + 1) q.expectIdent (fun _ => True) _ :=
      left.expect.bind fun _ _ _ _ left => ⟨trivial, left⟩
    refine named.bind fun name q _ _ left => ?_
    refine (Ready.typeExpr_tower n left).bind fun type q _ height left => ?_
    refine left.expect.bind fun _ q _ _ left => ?_
    refine (left.expression_true rfl room).bind fun value q _ _ left => ⟨?_, left⟩
    rw [Declaration.heightBy, height]
    omega
  refine declared.bind fun d q _ high left => ⟨?_, left⟩
  exact Nat.lt_succ_of_lt high

/-! ### Conditions after `else` -/

/-- So many further conditions. -/
def elseIfWords : Nat → List Word → List Word
  | 0, ws => ws
  | n + 1, ws =>
    Keyword.else_.word :: Keyword.if_.word :: Keyword.true.word :: Keyword.then_.word ::
      Symbol.leftBrace.word :: Symbol.rightBrace.word :: elseIfWords n ws

theorem Ready.block_empty
    (h : p.Ready limit depth (Symbol.leftBrace.word :: Symbol.rightBrace.word :: ws)) :
    Arrives limit depth p.block (fun _ => True) ws := by
  rw [block]
  refine h.expect.bind fun _ q _ _ left => ?_
  have rest : Arrives limit depth q.blockRest (fun _ => True) ws := by
    rw [blockRest]
    refine left.peek_bind fun token kind => ?_
    rw [show token.kind = .symbol .rightBrace from kind]
    exact left.expect.bind fun _ q _ _ left => ⟨trivial, left⟩
  exact rest.bind fun _ q _ _ left => ⟨trivial, left⟩

theorem Ready.conditional_chain (n : Nat) {p : Parser}
    (h : p.Ready limit depth (Keyword.if_.word :: Keyword.true.word :: Keyword.then_.word ::
      Symbol.leftBrace.word :: Symbol.rightBrace.word ::
      elseIfWords n (Symbol.semicolon.word :: ws)))
    (room : depth + 2 ≤ limit) :
    Arrives limit depth p.conditional (fun r => n ≤ r.1.heightBy .all)
      (Symbol.semicolon.word :: ws) := by
  rw [conditional]
  refine h.expect.bind fun _ q _ _ left => ?_
  refine (left.expression_true rfl room).bind fun condition q _ _ left => ?_
  refine left.expect.bind fun _ q _ _ left => ?_
  refine left.block_empty.bind fun body q _ _ left => ?_
  cases n with
  | zero =>
    refine Ready.leave_bind left (fun token kind => ?_) ⟨Nat.zero_le _, left⟩
    rw [show token.kind = .symbol .semicolon from kind]
    rfl
  | succ n =>
    refine Ready.eat_bind left fun _ q _ left => ?_
    refine left.peek_bind fun token kind => ?_
    dsimp only
    rw [if_pos (show token.kind = .keyword .if_ from kind)]
    refine (Ready.conditional_chain n left room).bind fun next q _ high left => ⟨?_, left⟩
    simp only [Conditional.heightBy, Gauge.all] at high ⊢
    omega
termination_by n

theorem Ready.expression_chain (n : Nat)
    (h : p.Ready limit depth (Keyword.if_.word :: Keyword.true.word :: Keyword.then_.word ::
      Symbol.leftBrace.word :: Symbol.rightBrace.word ::
      elseIfWords n (Symbol.semicolon.word :: ws)))
    (room : depth + 3 ≤ limit) :
    Arrives limit depth p.expression (fun e => n < e.heightBy .all)
      (Symbol.semicolon.word :: ws) := by
  refine h.expression (by omega) ?_
  rw [expressionFrom.eq_def]
  refine (h.descend.conditional_chain n room).bind fun found q _ high left => ?_
  exact ⟨Nat.lt_succ_of_le high, left⟩

/-! ### Operands joined to the left -/

/-- So many further operands. -/
def sumWords : Nat → List Word → List Word
  | 0, ws => ws
  | n + 1, ws => Symbol.plus.word :: Keyword.true.word :: sumWords n ws

/-- Further operands are not joined to the last one. -/
theorem sumWords_stop (n : Nat) (ws : List Word) :
    ∃ word rest, sumWords n (Symbol.semicolon.word :: ws) = word :: rest ∧
      (binaryOp? word.1).filter (BinaryOp.add.rightPower ≤ ·.leftPower) = none := by
  cases n <;> exact ⟨_, _, rfl, rfl⟩

theorem Ready.operationRest_sum (n : Nat) (lhs : Expr)
    (h : p.Ready limit depth (sumWords n (Symbol.semicolon.word :: ws)))
    (room : depth + 1 ≤ limit) :
    Arrives limit depth (p.operationRest 0 lhs)
      (fun e => lhs.heightBy .all + n ≤ e.heightBy .all) (Symbol.semicolon.word :: ws) := by
  induction n generalizing p lhs with
  | zero =>
    exact (Ready.operationRest_stop h lhs rfl).imp fun e same => Nat.le_of_eq (by rw [same]; rfl)
  | succ n ih =>
    rw [operationRest]
    obtain ⟨token, rest, eq, kind, left⟩ := Ready.first h
    obtain ⟨word, others, words, stop⟩ := sumWords_stop n ws
    have right : Arrives limit depth (Parser.operation { p with rest } BinaryOp.add.rightPower)
        (fun e => e.heightBy .all = 1) (sumWords n (Symbol.semicolon.word :: ws)) := by
      rw [words] at left ⊢
      exact left.operation_true room stop
    rw [takeOperator?, takeIf_of_rest eq, show token.kind = .symbol .plus from kind]
    refine right.bind fun rhs q _ _ left => ?_
    refine (ih _ left).bind fun e q _ high left => ⟨?_, left⟩
    simp only [Expr.heightBy, Gauge.all] at high ⊢
    omega

theorem Ready.expression_sum (n : Nat)
    (h : p.Ready limit depth (Keyword.true.word :: sumWords n (Symbol.semicolon.word :: ws)))
    (room : depth + 3 ≤ limit) :
    Arrives limit depth p.expression (fun e => n < e.heightBy .all)
      (Symbol.semicolon.word :: ws) := by
  refine h.expression (by omega) ?_
  rw [expressionFrom.eq_def]
  refine h.descend.operation (by omega) h.descend.descend.operand_true fun q lhs one left => ?_
  refine (left.operationRest_sum n lhs room).imp fun e high => ?_
  omega

end Parser

/-! ### The sources -/

section Sources

variable {cs : List Char} {ws : List Word}

/-- A declaration with so many list types inside of each other. -/
def nestedTypes (n : Nat) : String :=
  "var " ++ "x" ++ " " ++ (TypeExpr.tower n).source ++ " is " ++ "true" ++ ";"

/-- So many further conditions. -/
def elseIfs : Nat → String
  | 0 => ""
  | n + 1 => " else " ++ "if " ++ "true" ++ " then " ++ "\x7b" ++ "\x7d" ++ elseIfs n

def elseIfChain (n : Nat) : String :=
  "if " ++ "true" ++ " then " ++ "\x7b" ++ "\x7d" ++ elseIfs n ++ ";"

/-- So many further operands. -/
def summands : Nat → String
  | 0 => ""
  | n + 1 => " + " ++ "true" ++ summands n

def sumChain (n : Nat) : String :=
  "true" ++ summands n ++ ";"

theorem lexes_nestedTypes (n : Nat) :
    Lexes (nestedTypes n).toList (Keyword.var.word :: (.ident, "x") ::
      (TypeExpr.tower n).words [Keyword.is.word, Keyword.true.word, Symbol.semicolon.word]) := by
  have last := Lexes.keyword .true (.of_text ";" (by decide) []) (.closed .semicolon rfl .nil)
  have is := Lexes.space_keyword_space " is " .is (by decide) last
  have typed := (TypeExpr.tower n).lexes (.of_text " is " (by decide) _) is
  have proper : IsName "x" := ⟨by decide, List.all_eq_true.1 (by decide), by decide⟩
  have named := Lexes.name proper (.of_text " " (by decide) _) (.space typed)
  unfold nestedTypes
  simp only [String.toList_append, List.append_assoc]
  exact .keyword_space _ .var (by decide) named

/-- A true condition and an empty block. -/
theorem lexes_link (h : Lexes cs ws) :
    Lexes ("if ".toList ++ ("true".toList ++ (" then ".toList ++ ("\x7b".toList ++
        ("\x7d".toList ++ cs)))))
      (Keyword.if_.word :: Keyword.true.word :: Keyword.then_.word :: Symbol.leftBrace.word ::
        Symbol.rightBrace.word :: ws) := by
  have body := Lexes.closed .leftBrace rfl (.closed .rightBrace rfl h)
  have guarded := Lexes.space_keyword_space " then " .then_ (by decide) body
  exact .keyword_space _ .if_ (by decide) (.keyword .true (.of_text _ (by decide) _) guarded)

theorem lexes_elseIfs (n : Nat) (h : Lexes cs ws) :
    Lexes ((elseIfs n).toList ++ cs) (Parser.elseIfWords n ws) := by
  induction n with
  | zero => exact h
  | succ n ih =>
    simp only [elseIfs, String.toList_append, List.append_assoc]
    exact .space_keyword_space _ .else_ (by decide) (lexes_link ih)

theorem lexes_elseIfChain (n : Nat) :
    Lexes (elseIfChain n).toList (Keyword.if_.word :: Keyword.true.word :: Keyword.then_.word ::
      Symbol.leftBrace.word :: Symbol.rightBrace.word ::
      Parser.elseIfWords n [Symbol.semicolon.word]) := by
  unfold elseIfChain
  simp only [String.toList_append, List.append_assoc]
  exact lexes_link (lexes_elseIfs n (.closed .semicolon rfl .nil))

theorem lexes_summands (n : Nat) (apart : Lexes.Separated cs) (h : Lexes cs ws) :
    Lexes ("true".toList ++ ((summands n).toList ++ cs))
      (Keyword.true.word :: Parser.sumWords n ws) := by
  induction n with
  | zero => exact .keyword .true apart h
  | succ n ih =>
    simp only [summands, String.toList_append, List.append_assoc]
    exact .keyword .true (.of_text _ (by decide) _) (BinaryOp.add.lexes ih)

theorem lexes_sumChain (n : Nat) :
    Lexes (sumChain n).toList
      (Keyword.true.word :: Parser.sumWords n [Symbol.semicolon.word]) := by
  unfold sumChain
  simp only [String.toList_append, List.append_assoc]
  exact lexes_summands n (.of_text ";" (by decide) []) (.closed .semicolon rfl .nil)

end Sources

end ExprLang
