import ExprLang.Proofs.Places
import ExprLang.Proofs.RoundTrip.Attempt
import Mathlib.Data.List.Forall2

set_option autoImplicit false

/-!
Two parsers side by side, which may read from different sources. They stand before the same items up
to places, and the first has at least as much room for nesting as the second. Then they go the same
way step by step, up to the point where the second one has to give up, and read the same up to
places. How much of a place counts, all of it or nothing, is a parameter.
-/

namespace ExprLang

/-- Two sources that are read side by side, and what is kept of a place there in comparing. It tells
the same of the span that covers two others if it tells the same of those. -/
structure Comparison where
  left : String
  right : String
  view : Span → Span
  merge {s t s' t' : Span} : view s' = view s → view t' = view t →
    view (s'.merge t') = view (s.merge t)

/-- Two sources in which the places have to agree. -/
def Comparison.inPlace (left right : String) : Comparison where
  left
  right
  view := id
  merge := by
    rintro s t _ _ rfl rfl
    rfl

/-- Two sources in which places may differ. -/
def Comparison.anywhere (left right : String) : Comparison where
  left
  right
  view := Span.blot
  merge _ _ := rfl

/-- The same word up to places. -/
structure Token.Near (c : Comparison) (t u : Token) : Prop where
  kind : u.kind = t.kind
  span : c.view u.span = c.view t.span
  lexeme : u.lexeme c.right = t.lexeme c.left

/-- The same item of a scan up to places. -/
inductive Item.Near (c : Comparison) : Item → Item → Prop where
  | ok {t u : Token} (same : t.Near c u) : Near c (.ok t) (.ok u)
  | error {e e' : Located LexicalError} (cause : e'.cause = e.cause)
    (span : c.view e'.span = c.view e.span) : Near c (.error e) (.error e')

namespace Parser

variable {α β γ δ : Type} {m n : Nat} {c : Comparison}

/-- The same items up to places are left, and `p` may nest at least as deep as `q`. -/
structure Near (c : Comparison) (p q : Parser) : Prop where
  left : p.source = c.left
  right : q.source = c.right
  rest : List.Forall₂ (Item.Near c) p.rest q.rest
  eofKind : q.eof.kind = p.eof.kind
  eofSpan : c.view q.eof.span = c.view p.eof.span
  room : p.limit = none ∨ p.limit = q.limit ∧ p.depth ≤ q.depth

/-- Both attempts give related results or fail in the same way, unless the second one finds the
nesting too deep. -/
inductive Filters (c : Comparison) (R : α → β → Prop) : Attempt α → Attempt β → Prop where
  | ok {x : α} {y : β} (related : R x y) : Filters c R (.ok x) (.ok y)
  | error {e e' : Located SyntaxError} {p q : Parser} (cause : e'.cause = e.cause)
    (span : c.view e'.span = c.view e.span) (left : p.Near c q) :
    Filters c R (.error ⟨e, p⟩) (.error ⟨e', q⟩)
  | tooDeep {a : Attempt α} {e : Located SyntaxError} {q : Parser} (cause : e.cause = .tooDeep) :
    Filters c R a (.error ⟨e, q⟩)

/-- Related values, and parsers that are still side by side. -/
structure Parsed.Near (c : Comparison) (R : α → β → Prop) (r : Parsed m α) (s : Parsed n β) :
    Prop where
  value : R r.value s.value
  parser : r.parser.Near c s.parser

/-- Two attempts at reading give related values, unless the second one finds the nesting too
deep. -/
abbrev ReadsNear (c : Comparison) (R : α → β → Prop) (a : Attempt (Parsed m α))
    (b : Attempt (Parsed n β)) : Prop :=
  Filters c (Parsed.Near c R) a b

theorem Filters.bind {R : α → β → Prop} {S : γ → δ → Prop} {a : Attempt α} {b : Attempt β}
    {g : α → Attempt γ} {h : β → Attempt δ} (first : Filters c R a b)
    (rest : ∀ x y, R x y → Filters c S (g x) (h y)) : Filters c S (a >>= g) (b >>= h) := by
  cases first with
  | ok related => exact rest _ _ related
  | error cause span left => exact .error cause span left
  | tooDeep cause => exact .tooDeep cause

theorem ReadsNear.bind {R : α → β → Prop} {S : γ → δ → Prop} {a : Attempt (Parsed m α)}
    {b : Attempt (Parsed n β)} {g : Parsed m α → Attempt γ} {h : Parsed n β → Attempt δ}
    (first : ReadsNear c R a b)
    (rest : ∀ {x p s y q s'}, R x y → p.Near c q → Filters c S (g ⟨x, p, s⟩) (h ⟨y, q, s'⟩)) :
    Filters c S (a >>= g) (b >>= h) :=
  Filters.bind first fun _ _ near => rest near.value near.parser

/-- What the second attempt reads, the first one reads as well up to places. -/
theorem Filters.succeeds {R : α → β → Prop} {a : Attempt (Parsed m α)} {b : Attempt (Parsed n β)}
    (h : ReadsNear c R a b) {s : Parsed n β} (read : b = .ok s) :
    ∃ r, a = .ok r ∧ R r.value s.value ∧ r.parser.Near c s.parser := by
  subst read
  cases h with
  | ok near => exact ⟨_, rfl, near.value, near.parser⟩

theorem ReadsNear.mono {R S : α → β → Prop} {a : Attempt (Parsed m α)} {b : Attempt (Parsed n β)}
    (h : ReadsNear c R a b) (weaker : ∀ x y, R x y → S x y) : ReadsNear c S a b := by
  cases h with
  | ok near => exact .ok ⟨weaker _ _ near.value, near.parser⟩
  | error cause span left => exact .error cause span left
  | tooDeep cause => exact .tooDeep cause

/-- Both attempts have found something, or neither has. -/
theorem Filters.bindOption {R : α → β → Prop} {S : γ → δ → Prop}
    {a : Attempt (Option (Parsed m α))} {b : Attempt (Option (Parsed n β))}
    {g : Option (Parsed m α) → Attempt γ} {h : Option (Parsed n β) → Attempt δ}
    (first : Filters c (Option.Rel (Parsed.Near c R)) a b) (absent : Filters c S (g none) (h none))
    (found : ∀ {x p s y q s'}, R x y → p.Near c q →
      Filters c S (g (some ⟨x, p, s⟩)) (h (some ⟨y, q, s'⟩))) :
    Filters c S (a >>= g) (b >>= h) := by
  refine first.bind fun x y related => ?_
  cases related with
  | none => exact absent
  | some near => exact found near.value near.parser

/-- Where there is room for a parser, there is room for one that is not as deep in. -/
theorem isTooDeep_of_le {p q : Parser} (limit : p.limit = q.limit) (depth : p.depth ≤ q.depth)
    (fits : q.isTooDeep = false) : p.isTooDeep = false := by
  unfold isTooDeep at *
  rw [limit]
  cases bound : q.limit with
  | none => rfl
  | some bound' =>
    rw [bound] at fits
    have fits : ¬ bound' < q.depth := of_decide_eq_false fits
    exact decide_eq_false (by omega)

namespace Near

variable {p q : Parser}

theorem descend (near : p.Near c q) : p.descend.Near c q.descend := by
  refine { near with room := near.room.imp_right fun same => ?_ }
  exact ⟨same.1, Nat.add_le_add_right same.2 1⟩

theorem ascend (near : p.Near c q) : p.ascend.Near c q.ascend := by
  refine { near with room := near.room.imp_right fun same => ?_ }
  exact ⟨same.1, Nat.sub_le_sub_right same.2 1⟩

/-- Where there is room for the second parser, there is room for the first. -/
theorem isTooDeep (near : p.Near c q) (fits : q.isTooDeep = false) : p.isTooDeep = false := by
  obtain none | ⟨limit, depth⟩ := near.room
  · unfold Parser.isTooDeep
    rw [none]
  · exact isTooDeep_of_le limit depth fits

/-- Both go one level further in, unless that is too deep for the second. -/
theorem nested {R : α → β → Prop} (near : p.Near c q) {a : Attempt α} {b : Attempt β}
    {span span' : Span} (inner : p.descend.Near c q.descend → Filters c R a b) :
    Filters c R (if p.descend.isTooDeep then p.descend.fail .tooDeep span else a)
      (if q.descend.isTooDeep then q.descend.fail .tooDeep span' else b) := by
  cases fits : q.descend.isTooDeep with
  | true => exact .tooDeep rfl
  | false =>
    rw [near.descend.isTooDeep fits]
    exact inner near.descend

theorem fail {R : α → β → Prop} (near : p.Near c q) (cause : SyntaxError) {span span' : Span}
    (same : c.view span' = c.view span) : Filters c R (p.fail cause span) (q.fail cause span') :=
  .error rfl same near

/-- Parsers read the same in the same word. -/
theorem lexeme (near : p.Near c q) {t u : Token} (same : t.Near c u) : q.lexeme u = p.lexeme t := by
  unfold Parser.lexeme
  rw [near.left, near.right, same.lexeme]

/-- What is left after the first item on both sides. -/
theorem tail (near : p.Near c q) {ps qs : List Item}
    (rest : List.Forall₂ (Item.Near c) ps qs) :
    ({ p with rest := ps } : Parser).Near c { q with rest := qs } :=
  { near with rest }

theorem peek (near : p.Near c q) :
    Filters c (fun t u => u.kind = t.kind ∧ c.view u.span = c.view t.span) p.peek q.peek := by
  have rest := near.rest
  unfold Parser.peek
  generalize p.rest = ps at rest
  generalize q.rest = qs at rest
  cases rest with
  | nil => exact .ok ⟨near.eofKind, near.eofSpan⟩
  | cons first others =>
    cases first with
    | ok same => exact .ok ⟨same.kind, same.span⟩
    | error cause span =>
      dsimp only
      rw [cause]
      exact near.fail _ span

theorem next (near : p.Near c q) (atEnd : SyntaxError) :
    ReadsNear c (Token.Near c) (p.next atEnd) (q.next atEnd) := by
  have rest := near.rest
  generalize here : p.rest = ps at rest
  generalize there : q.rest = qs at rest
  cases rest with
  | nil =>
    rw [next_of_nil here, next_of_nil there]
    exact near.fail _ near.eofSpan
  | cons first others =>
    cases first with
    | ok same =>
      rw [next_of_rest here, next_of_rest there]
      exact .ok ⟨same, near.tail others⟩
    | error cause span =>
      rw [next_of_error here, next_of_error there, cause]
      exact (near.tail others).fail _ span

/-- A token is taken on both sides or on neither, if the test goes by its word. -/
theorem takeIf (near : p.Near c q) {R : α → α → Prop} {accept : Token → Option α}
    (same : ∀ t u : Token, t.Near c u → Option.Rel R (accept t) (accept u)) :
    Filters c (Option.Rel (Parsed.Near c R)) (p.takeIf? accept) (q.takeIf? accept) := by
  have rest := near.rest
  generalize here : p.rest = ps at rest
  generalize there : q.rest = qs at rest
  cases rest with
  | nil =>
    rw [takeIf_of_nil here, takeIf_of_nil there]
    exact .ok .none
  | cons first others =>
    cases first with
    | @ok t u word =>
      rw [takeIf_of_rest here, takeIf_of_rest there]
      have accepted := same t u word
      generalize accept t = x at accepted
      generalize accept u = y at accepted
      cases accepted with
      | none => exact .ok .none
      | some related => exact .ok (.some ⟨related, near.tail others⟩)
    | error cause span =>
      rw [takeIf_of_error here, takeIf_of_error there, cause]
      exact near.fail _ span

theorem expect (near : p.Near c q) (kind : TokenKind) :
    ReadsNear c (Token.Near c) (p.expect kind) (q.expect kind) := by
  refine (near.next _).bind fun same left => ?_
  dsimp only
  rw [same.kind]
  split
  · exact .ok ⟨same, left⟩
  · exact left.fail _ same.span

theorem expectIdent (near : p.Near c q) :
    ReadsNear c (fun i j : Ident => j.respan c.view = i.respan c.view)
      p.expectIdent q.expectIdent := by
  refine (near.expect _).bind fun same left => .ok ⟨?_, left⟩
  simp only [Ident.respan, near.lexeme same, same.span]

theorem eat (near : p.Near c q) (kind : TokenKind) :
    Filters c (Option.Rel (Parsed.Near c (Token.Near c)))
      (p.eat? kind) (q.eat? kind) := by
  refine near.takeIf fun t u same => ?_
  rw [same.kind]
  split
  · exact .some same
  · exact .none

theorem takeOperator (near : p.Near c q) (power : Nat) :
    Filters c (Option.Rel (Parsed.Near c Eq)) (p.takeOperator? power) (q.takeOperator? power) := by
  refine near.takeIf fun t u same => ?_
  rw [same.kind]
  cases (binaryOp? t.kind).filter (power ≤ ·.leftPower) with
  | none => exact .none
  | some op => exact .some rfl

end Near

/-! ### Phrases -/

theorem typeExpr_parallel {p q : Parser} (near : p.Near c q) :
    ReadsNear c (fun s t : TypeExpr => t.respan c.view = s.respan c.view)
      p.typeExpr q.typeExpr := by
  rw [typeExpr, typeExpr]
  refine (near.next _).bind fun same left => ?_
  dsimp only
  rw [same.kind]
  split
  case h_6 =>
    refine (left.expect _).bind fun _ left => ?_
    refine (typeExpr_parallel left).bind fun element left => ?_
    refine (left.expect _).bind fun closing left => .ok ⟨?_, left⟩
    simp only [TypeExpr.respan, element, c.merge same.span closing.span]
  case h_7 =>
    refine (left.expect _).bind fun _ left => ?_
    refine (typeExpr_parallel left).bind fun key left => ?_
    refine (left.expect _).bind fun _ left => ?_
    refine (typeExpr_parallel left).bind fun value left => .ok ⟨?_, left⟩
    simp only [TypeExpr.respan, key, value, c.merge same.span (TypeExpr.span_of_respan value)]
  case h_8 => exact left.fail _ same.span
  all_goals exact .ok ⟨by simp only [TypeExpr.respan, same.span], left⟩
termination_by p.size

theorem respan_assignedValue {i j : Ident} {d e : Expr} (target : j.respan c.view = i.respan c.view)
    (op : Option BinaryOp) (value : e.respan c.view = d.respan c.view) :
    (assignedValue j op e).respan c.view = (assignedValue i op d).respan c.view := by
  cases op with
  | none => exact value
  | some op =>
    have place := Ident.span_of_respan target
    simp only [assignedValue, Expr.respan, target, value, place,
      c.merge place (Expr.span_of_respan value)]

mutual

theorem statement_parallel {p q : Parser} (near : p.Near c q) :
    ReadsNear c (fun d e : Expr => e.respan c.view = d.respan c.view) p.statement q.statement := by
  have exits (t u : Token) (same : t.Near c u) :
      Option.Rel (fun x y : Exit × Token => y.1 = x.1 ∧ c.view y.2.span = c.view x.2.span)
        (match t.kind with
          | .keyword .return_ => some (.return_, t)
          | .keyword .break_ => some (.break_, t)
          | _ => none)
        (match u.kind with
          | .keyword .return_ => some (.return_, u)
          | .keyword .break_ => some (.break_, u)
          | _ => none) := by
    rw [same.kind]
    split
    · exact .some ⟨rfl, same.span⟩
    · exact .some ⟨rfl, same.span⟩
    · exact .none
  rw [statement, statement]
  refine (near.takeIf exits).bindOption (expression_parallel near) fun {x _ _ y _ _} exit left => ?_
  obtain ⟨kind, token⟩ := x
  obtain ⟨kind', token'⟩ := y
  obtain ⟨rfl, place⟩ : kind' = kind ∧ c.view token'.span = c.view token.span := exit
  refine left.peek.bind fun t u following => ?_
  dsimp only
  rw [following.1]
  split
  case h_4 =>
    refine (expression_parallel left).bind fun value left => .ok ⟨?_, left⟩
    simp only [Expr.respan, value, c.merge place (Expr.span_of_respan value)]
  all_goals exact .ok ⟨by simp only [Expr.respan, place], left⟩
termination_by p.size * 8 + 4

theorem expression_parallel {p q : Parser} (near : p.Near c q) :
    ReadsNear c (fun d e : Expr => e.respan c.view = d.respan c.view)
      p.expression q.expression := by
  rw [expression, expression]
  refine near.peek.bind fun t u following => ?_
  rw [following.1]
  refine near.nested fun within => ?_
  have inner := expressionFrom_parallel within t.kind
  generalize p.descend.expressionFrom t.kind = a at inner
  generalize q.descend.expressionFrom t.kind = b at inner
  cases inner with
  | ok read => exact .ok ⟨read.value, read.parser.ascend⟩
  | error cause span left => exact .error cause span left.ascend
  | tooDeep cause => exact .tooDeep cause
termination_by p.size * 8 + 3

theorem expressionFrom_parallel {p q : Parser} (near : p.Near c q) (first : TokenKind) :
    ReadsNear c (fun d e : Expr => e.respan c.view = d.respan c.view) (p.expressionFrom first)
      (q.expressionFrom first) := by
  rw [expressionFrom.eq_def, expressionFrom.eq_def]
  split
  case h_1 | h_2 =>
    refine (declaration_parallel near).bind fun d left => .ok ⟨?_, left⟩
    simp only [Expr.respan, d, Declaration.span_of_respan d]
  case h_3 => exact assignment_parallel near
  case h_4 =>
    refine (conditional_parallel near).bind fun branches left => .ok ⟨?_, left⟩
    simp only [Expr.respan, branches.1, branches.2]
  case h_5 => exact loop_parallel near
  case h_6 =>
    refine (block_parallel near).bind fun body left => .ok ⟨?_, left⟩
    simp only [Expr.respan, body, Block.span_of_respan body]
  case h_7 => exact operation_parallel near 0
termination_by p.size * 8 + 2

theorem block_parallel {p q : Parser} (near : p.Near c q) :
    ReadsNear c (fun a b : Block => b.respan c.view = a.respan c.view) p.block q.block := by
  rw [block, block]
  refine (near.expect _).bind fun opening left => ?_
  refine (blockRest_parallel left).bind fun rest left => .ok ⟨?_, left⟩
  simp only [Block.respan, rest.1, c.merge opening.span rest.2]
termination_by p.size * 8

theorem blockRest_parallel {p q : Parser} (near : p.Near c q) :
    ReadsNear c (fun r s : List Expr × Token =>
        Expr.respanAll c.view s.1 = Expr.respanAll c.view r.1 ∧ c.view s.2.span = c.view r.2.span)
      p.blockRest q.blockRest := by
  rw [blockRest, blockRest]
  refine near.peek.bind fun t u following => ?_
  rw [following.1]
  split
  · exact (near.expect _).bind fun closing left => .ok ⟨⟨rfl, closing.span⟩, left⟩
  · refine (near.expect _).bind fun _ left => ?_
    exact (blockRest_parallel left).bind fun rest left => .ok ⟨rest, left⟩
  · exact near.fail _ following.2
  · refine (statement_parallel near).bind fun first left => ?_
    refine (left.eat _).bindOption ?_ fun _ left => ?_
    · refine (left.expect _).bind fun closing left => .ok ⟨⟨?_, closing.span⟩, left⟩
      simp only [Expr.respanAll, first]
    · refine (blockRest_parallel left).bind fun rest left => .ok ⟨⟨?_, rest.2⟩, left⟩
      simp only [Expr.respanAll, first, rest.1]
termination_by p.size * 8 + 5

theorem declaration_parallel {p q : Parser} (near : p.Near c q) :
    ReadsNear c (fun d e : Declaration => e.respan c.view = d.respan c.view)
      p.declaration q.declaration := by
  rw [declaration, declaration]
  refine (near.next _).bind fun keyword left => ?_
  dsimp only
  rw [keyword.kind]
  split
  case h_3 => exact left.fail _ keyword.span
  case h_1 | h_2 =>
    refine left.expectIdent.bind fun name left => ?_
    refine (typeExpr_parallel left).bind fun type left => ?_
    refine (left.expect _).bind fun _ left => ?_
    refine (expression_parallel left).bind fun value left => .ok ⟨?_, left⟩
    simp only [Declaration.respan, name, type, value,
      c.merge keyword.span (Expr.span_of_respan value)]
termination_by p.size * 8

theorem assignment_parallel {p q : Parser} (near : p.Near c q) :
    ReadsNear c (fun d e : Expr => e.respan c.view = d.respan c.view)
      p.assignment q.assignment := by
  rw [assignment, assignment]
  refine (near.expect _).bind fun keyword left => ?_
  refine left.expectIdent.bind fun target left => ?_
  refine (left.next _).bind fun operator left => ?_
  dsimp only
  rw [operator.kind]
  split
  · exact left.fail _ operator.span
  next op _ =>
    refine (expression_parallel left).bind fun value left => .ok ⟨?_, left⟩
    simp only [Expr.respan, target, respan_assignedValue target op value,
      c.merge keyword.span (Expr.span_of_respan value)]
termination_by p.size * 8

theorem conditional_parallel {p q : Parser} (near : p.Near c q) :
    ReadsNear c (fun r s : Conditional × Span =>
        s.1.respan c.view = r.1.respan c.view ∧ c.view s.2 = c.view r.2)
      p.conditional q.conditional := by
  rw [conditional, conditional]
  refine (near.expect _).bind fun keyword left => ?_
  refine (expression_parallel left).bind fun condition left => ?_
  refine (left.expect _).bind fun _ left => ?_
  refine (block_parallel left).bind fun body left => ?_
  have place := c.merge keyword.span (Block.span_of_respan body)
  refine (left.eat _).bindOption (.ok ⟨⟨?_, place⟩, left⟩) fun _ left => ?_
  · simp only [Conditional.respan, condition, body]
  refine left.peek.bind fun t u following => ?_
  dsimp only
  rw [following.1]
  split
  · refine (conditional_parallel left).bind fun next left => .ok ⟨⟨?_, c.merge place next.2⟩, left⟩
    simp only [Conditional.respan, condition, body, next.1, next.2]
  · refine (block_parallel left).bind fun otherwise left => ?_
    refine .ok ⟨⟨?_, c.merge place (Block.span_of_respan otherwise)⟩, left⟩
    simp only [Conditional.respan, condition, body, otherwise]
termination_by p.size * 8

theorem loop_parallel {p q : Parser} (near : p.Near c q) :
    ReadsNear c (fun d e : Expr => e.respan c.view = d.respan c.view) p.loop q.loop := by
  rw [loop, loop]
  refine (near.expect _).bind fun keyword left => ?_
  refine (declarations_parallel left).bind fun vars left => ?_
  refine (block_parallel left).bind fun body left => .ok ⟨?_, left⟩
  simp only [Expr.respan, vars, body, c.merge keyword.span (Block.span_of_respan body)]
termination_by p.size * 8

theorem declarations_parallel {p q : Parser} (near : p.Near c q) :
    ReadsNear c (fun ds es => Declaration.respanAll c.view es = Declaration.respanAll c.view ds)
      p.declarations q.declarations := by
  rw [declarations, declarations]
  refine (declaration_parallel near).bind fun first left => ?_
  refine (left.eat _).bindOption (.ok ⟨?_, left⟩) fun _ left => ?_
  · simp only [Declaration.respanAll, first]
  · refine (declarations_parallel left).bind fun others left => .ok ⟨?_, left⟩
    simp only [Declaration.respanAll, first, others]
termination_by p.size * 8 + 1

theorem operation_parallel {p q : Parser} (near : p.Near c q) (power : Nat) :
    ReadsNear c (fun d e : Expr => e.respan c.view = d.respan c.view) (p.operation power)
      (q.operation power) := by
  rw [operation, operation]
  refine near.peek.bind fun t u _ => ?_
  refine near.nested fun within => ?_
  refine (operand_parallel within).bind fun {_ inner shorter _ _ _} lhs left => ?_
  have shorter : inner.size < p.size := shorter
  exact (operationRest_parallel left power lhs).bind fun e left => .ok ⟨e, left.ascend⟩
termination_by p.size * 8 + 1

theorem operationRest_parallel {p q : Parser} (near : p.Near c q) (power : Nat) {d e : Expr}
    (lhs : e.respan c.view = d.respan c.view) :
    ReadsNear c (fun d e : Expr => e.respan c.view = d.respan c.view) (p.operationRest power d)
      (q.operationRest power e) := by
  rw [operationRest, operationRest]
  refine (near.takeOperator power).bindOption (.ok ⟨lhs, near⟩) fun op left => ?_
  cases op
  refine (operation_parallel left _).bind fun rhs left => ?_
  refine (operationRest_parallel left power ?_).bind fun e left => .ok ⟨e, left⟩
  simp only [Expr.respan, lhs, rhs, c.merge (Expr.span_of_respan lhs) (Expr.span_of_respan rhs)]
termination_by p.size * 8

theorem operand_parallel {p q : Parser} (near : p.Near c q) :
    ReadsNear c (fun d e : Expr => e.respan c.view = d.respan c.view) p.operand q.operand := by
  rw [operand, operand]
  refine (near.next _).bind fun token left => ?_
  dsimp only
  rw [token.kind, near.lexeme token]
  split
  case h_1 | h_2 | h_3 =>
    split
    · exact .ok ⟨by simp only [Expr.respan, token.span], left⟩
    · exact left.fail _ token.span
  case h_4 | h_5 => exact .ok ⟨by simp only [Expr.respan, token.span], left⟩
  case h_6 =>
    refine (left.eat _).bindOption (.ok ⟨?_, left⟩) fun _ left => ?_
    · simp only [Expr.respan, Ident.respan, token.span]
    · refine (expressions_parallel left _).bind fun arguments left => .ok ⟨?_, left⟩
      simp only [Expr.respan, Ident.respan, token.span, arguments.1,
        c.merge token.span arguments.2]
  case h_7 =>
    refine (expressions_parallel left _).bind fun items left => .ok ⟨?_, left⟩
    simp only [Expr.respan, items.1, c.merge token.span items.2]
  case h_8 =>
    refine (entries_parallel left).bind fun entries left => .ok ⟨?_, left⟩
    simp only [Expr.respan, entries.1, c.merge token.span entries.2]
  case h_9 | h_10 =>
    refine (operation_parallel left _).bind fun rhs left => .ok ⟨?_, left⟩
    simp only [Expr.respan, rhs, c.merge token.span (Expr.span_of_respan rhs)]
  case h_11 =>
    refine (expression_parallel left).bind fun inner left => ?_
    refine (left.expect _).bind fun closing left => .ok ⟨?_, left⟩
    simp only [Expr.respan_withSpan, inner, c.merge token.span closing.span]
  case h_12 => exact left.fail _ token.span
termination_by p.size * 8

theorem expressions_parallel {p q : Parser} (near : p.Near c q) (closing : TokenKind) :
    ReadsNear c (fun r s : List Expr × Token =>
        Expr.respanAll c.view s.1 = Expr.respanAll c.view r.1 ∧ c.view s.2.span = c.view r.2.span)
      (p.expressions closing) (q.expressions closing) := by
  rw [expressions, expressions]
  refine (near.eat _).bindOption ?_ fun token left => .ok ⟨⟨rfl, token.span⟩, left⟩
  refine (expression_parallel near).bind fun first left => ?_
  refine (left.eat _).bindOption ?_ fun _ left => ?_
  · refine (left.expect _).bind fun token left => .ok ⟨⟨?_, token.span⟩, left⟩
    simp only [Expr.respanAll, first]
  · refine (expressions_parallel left closing).bind fun others left => .ok ⟨⟨?_, others.2⟩, left⟩
    simp only [Expr.respanAll, first, others.1]
termination_by p.size * 8 + 4

theorem entries_parallel {p q : Parser} (near : p.Near c q) :
    ReadsNear c (fun r s : List (Expr × Expr) × Token =>
        Expr.respanEntries c.view s.1 = Expr.respanEntries c.view r.1 ∧
          c.view s.2.span = c.view r.2.span)
      p.entries q.entries := by
  rw [entries, entries]
  refine (near.eat _).bindOption ?_ fun token left => .ok ⟨⟨rfl, token.span⟩, left⟩
  refine (expression_parallel near).bind fun key left => ?_
  refine (left.expect _).bind fun _ left => ?_
  refine (expression_parallel left).bind fun value left => ?_
  refine (left.eat _).bindOption ?_ fun _ left => ?_
  · refine (left.expect _).bind fun token left => .ok ⟨⟨?_, token.span⟩, left⟩
    simp only [Expr.respanEntries, key, value]
  · refine (entries_parallel left).bind fun others left => .ok ⟨⟨?_, others.2⟩, left⟩
    simp only [Expr.respanEntries, key, value, others.1]
termination_by p.size * 8 + 4

end

theorem program_parallel {p q : Parser} (near : p.Near c q) :
    ReadsNear c (fun r s : Program => s.respan c.view = r.respan c.view) p.program q.program := by
  rw [program, program]
  refine near.peek.bind fun t u following => ?_
  rw [following.1]
  split
  · exact .ok ⟨rfl, near⟩
  · refine (near.expect _).bind fun _ left => ?_
    exact (program_parallel left).bind fun rest left => .ok ⟨rest, left⟩
  · refine (statement_parallel near).bind fun first left => ?_
    refine (left.expect _).bind fun _ left => ?_
    refine (program_parallel left).bind fun rest left => .ok ⟨?_, left⟩
    simp only [Program.respan] at rest
    simp only [Program.respan, Expr.respanAll, first, rest]
termination_by p.size

/-! ### Sources with the same words -/

section Words

variable {p q : Parser} {words : List Word}

/-- Parsers before the same words, wherever these stand. -/
theorem Holds.near (left : p.Holds words) (right : q.Holds words)
    (room : p.limit = none ∨ p.limit = q.limit ∧ p.depth ≤ q.depth) :
    p.Near (.anywhere p.source q.source) q := by
  obtain ⟨tokens, here, spelled⟩ := left.tokens
  obtain ⟨tokens', there, spelled'⟩ := right.tokens
  refine ⟨rfl, rfl, ?_, right.eof.trans left.eof.symm, rfl, room⟩
  have same :
      List.Forall₂ (fun t u : Token => u.word q.source = t.word p.source) tokens tokens' := by
    rw [← List.forall₂_map_left_iff (R := fun word u => Token.word q.source u = word), spelled,
      ← spelled', List.forall₂_map_left_iff, List.forall₂_same]
    exact fun _ _ => rfl
  rw [here, there, List.forall₂_map_left_iff, List.forall₂_map_right_iff]
  exact same.imp fun t u word =>
    .ok ⟨congrArg Prod.fst word, rfl, congrArg Prod.snd word⟩

/-- What is read from the words at one place is read from them at another. -/
theorem expression_of_holds (left : p.Holds words) (right : q.Holds words)
    (room : p.limit = none ∨ p.limit = q.limit ∧ p.depth ≤ q.depth) {s : Parsed q.size Expr}
    (read : q.expression = .ok s) :
    ∃ r, p.expression = .ok r ∧ r.value.bare = s.value.bare ∧
      (s.parser.rest = [] → r.parser.rest = []) := by
  obtain ⟨r, read, same, near⟩ := (expression_parallel (left.near right room)).succeeds read
  refine ⟨r, read, Eq.symm same, fun nil => ?_⟩
  have rest := near.rest
  rwa [nil, List.forall₂_nil_right_iff] at rest

/-- Before the same words, with the same room, both read the same program up to places, or meet the
same trouble. -/
theorem program_of_holds (left : p.Holds words) (right : q.Holds words) (limit : q.limit = p.limit)
    (depth : q.depth = p.depth) :
    (∃ r s, p.program = .ok r ∧ q.program = .ok s ∧ s.value.bare = r.value.bare) ∨
      ∃ f g, p.program = .error f ∧ q.program = .error g ∧ g.error.cause = f.error.cause := by
  have forth := program_parallel (left.near right (.inr ⟨limit.symm, Nat.le_of_eq depth.symm⟩))
  have back := program_parallel (right.near left (.inr ⟨limit, Nat.le_of_eq depth⟩))
  generalize p.program = a at forth back
  generalize q.program = b at forth back
  cases forth with
  | ok found => exact .inl ⟨_, _, rfl, rfl, found.value⟩
  | error cause => exact .inr ⟨_, _, rfl, rfl, cause⟩
  | tooDeep deep =>
    -- Then the other one finds the nesting too deep as well.
    cases back with
    | error cause => exact .inr ⟨_, _, rfl, rfl, cause.symm⟩
    | tooDeep deep' => exact .inr ⟨_, _, rfl, rfl, deep.trans deep'.symm⟩

end Words

end Parser

end ExprLang
