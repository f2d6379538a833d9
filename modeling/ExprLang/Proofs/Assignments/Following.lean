import ExprLang.Proofs.Nesting.Limit
import ExprLang.Proofs.RoundTrip.Attempt

set_option autoImplicit false

/-!
What stands after an expression. Three parsers go side by side: the first has nothing but an
expression before it, the other two have the same expression and then something that ends it. As
long as the first one reads on, so do the others, unless the nesting is too deep for the second; the
third has at least as much room.
-/

namespace ExprLang.Parser

variable {α β γ δ ε ζ : Type} {l m n : Nat} {after after' : List Item}

/-- The tokens that end an expression wherever it stands. -/
def closers : List TokenKind :=
  [.symbol .semicolon, .symbol .rightParen]

/-- The items begin with a token that ends what stands before it. -/
def Sealed (items : List Item) : Prop :=
  ∃ token rest, items = .ok token :: rest ∧ token.kind ∈ closers

/-! ### Failure -/

/-- The attempt meets trouble of some sort. -/
def Fails (a : Attempt α) : Prop :=
  ∃ failure, a = .error failure

namespace Fails

variable {u : Parser}

/-- Whatever is read takes at least one item. -/
theorem of_nil (nil : u.rest = []) (a : Attempt (Parsed u.size α)) : Fails a := by
  cases a with
  | error failure => exact ⟨failure, rfl⟩
  | ok r =>
    have shorter : r.parser.size < u.rest.length := r.shorter
    rw [nil] at shorter
    exact absurd shorter (Nat.not_lt_zero _)

theorem bind {a : Attempt α} (fails : Fails a) (f : α → Attempt β) : Fails (a >>= f) := by
  obtain ⟨failure, rfl⟩ := fails
  exact ⟨failure, rfl⟩

theorem peek_bind (nil : u.rest = []) {f : Token → Attempt β} (fails : Fails (f u.eof)) :
    Fails (u.peek >>= f) := by
  rw [peek_of_nil nil]
  exact fails

theorem eat_bind (nil : u.rest = []) {kind : TokenKind}
    {f : Option (Parsed u.size Token) → Attempt β} (fails : Fails (f none)) :
    Fails (u.eat? kind >>= f) := by
  rw [eat?, takeIf_of_nil nil]
  exact fails

end Fails

/-! ### Three parsers -/

/-- Before `p` and `q` stand the same items as before `u`, and then what is given for each. All of
them are from one source. -/
structure Beside (after after' : List Item) (u p q : Parser) : Prop where
  source : p.source = u.source
  source' : q.source = u.source
  sealed : Sealed after
  sealed' : Sealed after'
  first : p.rest = u.rest ++ after
  second : q.rest = u.rest ++ after'
  limit : q.limit = p.limit
  depth : q.depth ≤ p.depth

/-- Three attempts give related results, unless the first one fails or the second one finds the
nesting too deep. -/
inductive Together (R : α → β → γ → Prop) : Attempt α → Attempt β → Attempt γ → Prop where
  | ok {x : α} {y : β} {z : γ} (related : R x y z) : Together R (.ok x) (.ok y) (.ok z)
  | stuck {f : Failure} {b : Attempt β} {c : Attempt γ} : Together R (.error f) b c
  | tooDeep {a : Attempt α} {f : Failure} {c : Attempt γ} (cause : TooDeep f) :
    Together R a (.error f) c

/-- The same value three times, and parsers that are still side by side. -/
structure Parsed.Beside (after after' : List Item) (r : Parsed l α) (s : Parsed m α)
    (t : Parsed n α) : Prop where
  first : s.value = r.value
  second : t.value = r.value
  parser : r.parser.Beside after after' s.parser t.parser

/-- Three attempts at reading give the same, unless the first one fails or the second one finds the
nesting too deep. -/
abbrev ReadTogether (after after' : List Item) (a : Attempt (Parsed l α))
    (b : Attempt (Parsed m α)) (c : Attempt (Parsed n α)) : Prop :=
  Together (Parsed.Beside after after') a b c

namespace Together

variable {R : α → β → γ → Prop} {S : δ → ε → ζ → Prop} {a : Attempt α} {b : Attempt β}
  {c : Attempt γ} {f : α → Attempt δ} {g : β → Attempt ε} {h : γ → Attempt ζ}

theorem bind (first : Together R a b c)
    (rest : ∀ x y z, R x y z → Together S (f x) (g y) (h z)) :
    Together S (a >>= f) (b >>= g) (c >>= h) := by
  cases first with
  | ok related => exact rest _ _ _ related
  | stuck => exact .stuck
  | tooDeep cause => exact .tooDeep cause

theorem of_fails (fails : Fails a) : Together R a b c := by
  obtain ⟨failure, rfl⟩ := fails
  exact .stuck

end Together

theorem ReadTogether.bind {S : δ → ε → ζ → Prop} {a : Attempt (Parsed l α)}
    {b : Attempt (Parsed m α)} {c : Attempt (Parsed n α)} {f : Parsed l α → Attempt δ}
    {g : Parsed m α → Attempt ε} {h : Parsed n α → Attempt ζ}
    (first : ReadTogether after after' a b c)
    (rest : ∀ {x u s p s' q s''}, Beside after after' u p q →
      Together S (f ⟨x, u, s⟩) (g ⟨x, p, s'⟩) (h ⟨x, q, s''⟩)) :
    Together S (a >>= f) (b >>= g) (c >>= h) := by
  refine Together.bind first fun x y z same => ?_
  obtain ⟨value, u, s⟩ := x
  obtain ⟨value', p, s'⟩ := y
  obtain ⟨value'', q, s''⟩ := z
  obtain rfl : value' = value := same.first
  obtain rfl : value'' = value' := same.second
  exact rest same.parser

namespace Beside

variable {u p q : Parser}

theorem descend (beside : Beside after after' u p q) :
    Beside after after' u.descend p.descend q.descend :=
  { beside with depth := Nat.add_le_add_right beside.depth 1 }

theorem ascend (beside : Beside after after' u p q) :
    Beside after after' u.ascend p.ascend q.ascend :=
  { beside with depth := Nat.sub_le_sub_right beside.depth 1 }

theorem lexeme (beside : Beside after after' u p q) (token : Token) :
    p.lexeme token = u.lexeme token ∧ q.lexeme token = u.lexeme token :=
  ⟨congrArg token.lexeme beside.source, congrArg token.lexeme beside.source'⟩

/-- All go one level further in, unless that is too deep for the second. -/
theorem nested {R : α → β → γ → Prop} (beside : Beside after after' u p q) {a : Attempt α}
    {b : Attempt β} {c : Attempt γ} {span span' span'' : Span}
    (inner : Beside after after' u.descend p.descend q.descend → Together R a b c) :
    Together R (if u.descend.isTooDeep then u.descend.fail .tooDeep span else a)
      (if p.descend.isTooDeep then p.descend.fail .tooDeep span' else b)
      (if q.descend.isTooDeep then q.descend.fail .tooDeep span'' else c) := by
  cases fits : p.descend.isTooDeep with
  | true => exact .tooDeep rfl
  | false =>
    rw [isTooDeep_of_le beside.descend.limit beside.descend.depth fits]
    split
    · exact .stuck
    · exact inner beside.descend

/-- Where something is left of the expression, all three stand before the same item. -/
theorem front (beside : Beside after after' u p q) {item : Item} {rest : List Item}
    (here : u.rest = item :: rest) :
    p.rest = item :: (rest ++ after) ∧ q.rest = item :: (rest ++ after') ∧
      Beside after after' { u with rest } { p with rest := rest ++ after }
        { q with rest := rest ++ after' } := by
  refine ⟨?_, ?_, { beside with first := rfl, second := rfl }⟩
  · rw [beside.first, here, List.cons_append]
  · rw [beside.second, here, List.cons_append]

theorem peek (beside : Beside after after' u p q) (some : u.rest ≠ []) :
    Together (fun t t' t'' => t' = t ∧ t'' = t) u.peek p.peek q.peek := by
  obtain ⟨item, rest, here⟩ := List.exists_cons_of_ne_nil some
  obtain ⟨first, second, -⟩ := beside.front here
  cases item with
  | ok token =>
    rw [peek_of_rest here, peek_of_rest first, peek_of_rest second]
    exact .ok ⟨rfl, rfl⟩
  | error e =>
    obtain ⟨_, _, eof, depth, limit⟩ := u
    cases here
    exact .stuck

theorem next (beside : Beside after after' u p q) (atEnd : SyntaxError) :
    ReadTogether after after' (u.next atEnd) (p.next atEnd) (q.next atEnd) := by
  cases here : u.rest with
  | nil =>
    rw [next_of_nil here]
    exact .stuck
  | cons item rest =>
    obtain ⟨first, second, left⟩ := beside.front here
    cases item with
    | ok token =>
      rw [next_of_rest here, next_of_rest first, next_of_rest second]
      exact .ok ⟨rfl, rfl, left⟩
    | error e =>
      obtain ⟨_, _, eof, depth, limit⟩ := u
      cases here
      exact .stuck

theorem expect (beside : Beside after after' u p q) (kind : TokenKind) :
    ReadTogether after after' (u.expect kind) (p.expect kind) (q.expect kind) := by
  refine (beside.next _).bind fun left => ?_
  dsimp only
  split
  · exact .ok ⟨rfl, rfl, left⟩
  · exact .stuck

theorem expectIdent (beside : Beside after after' u p q) :
    ReadTogether after after' u.expectIdent p.expectIdent q.expectIdent := by
  refine (beside.expect _).bind fun left => ?_
  dsimp only
  rw [(beside.lexeme _).1, (beside.lexeme _).2]
  exact .ok ⟨rfl, rfl, left⟩

variable {S : δ → ε → ζ → Prop}

/-- A token is taken by all or by none. At the end of the expression this needs that what stands
there is not taken. -/
theorem takeIf_bind (beside : Beside after after' u p q) {accept : Token → Option α}
    (refuses : u.rest = [] → ∀ token : Token, token.kind ∈ closers → accept token = none)
    {f : Option (Parsed u.size α) → Attempt δ} {g : Option (Parsed p.size α) → Attempt ε}
    {h : Option (Parsed q.size α) → Attempt ζ} (absent : Together S (f none) (g none) (h none))
    (found : ∀ {x u s p s' q s''}, Beside after after' u p q →
      Together S (f (some ⟨x, u, s⟩)) (g (some ⟨x, p, s'⟩)) (h (some ⟨x, q, s''⟩))) :
    Together S (u.takeIf? accept >>= f) (p.takeIf? accept >>= g) (q.takeIf? accept >>= h) := by
  cases here : u.rest with
  | nil =>
    have first := beside.first
    have second := beside.second
    obtain ⟨token, rest, rfl, ends⟩ := beside.sealed
    obtain ⟨token', rest', rfl, ends'⟩ := beside.sealed'
    rw [here, List.nil_append] at first second
    rw [takeIf_of_nil here, takeIf_of_rest first, takeIf_of_rest second, refuses here _ ends,
      refuses here _ ends']
    exact absent
  | cons item rest =>
    obtain ⟨first, second, left⟩ := beside.front here
    cases item with
    | ok token =>
      rw [takeIf_of_rest here, takeIf_of_rest first, takeIf_of_rest second]
      cases accept token with
      | none => exact absent
      | some x => exact found left
    | error e =>
      obtain ⟨_, _, eof, depth, limit⟩ := u
      cases here
      exact .stuck

theorem eat_bind (beside : Beside after after' u p q) {kind : TokenKind}
    (inner : u.rest = [] → kind ∉ closers)
    {f : Option (Parsed u.size Token) → Attempt δ} {g : Option (Parsed p.size Token) → Attempt ε}
    {h : Option (Parsed q.size Token) → Attempt ζ} (absent : Together S (f none) (g none) (h none))
    (found : ∀ {x u s p s' q s''}, Beside after after' u p q →
      Together S (f (some ⟨x, u, s⟩)) (g (some ⟨x, p, s'⟩)) (h (some ⟨x, q, s''⟩))) :
    Together S (u.eat? kind >>= f) (p.eat? kind >>= g) (q.eat? kind >>= h) := by
  refine beside.takeIf_bind (fun none token ends => ?_) absent found
  refine if_neg ?_
  rintro rfl
  exact inner none ends

end Beside

theorem typeExpr_together {u p q : Parser} (beside : Beside after after' u p q) :
    ReadTogether after after' u.typeExpr p.typeExpr q.typeExpr := by
  rw [typeExpr, typeExpr, typeExpr]
  refine (beside.next _).bind fun left => ?_
  dsimp only
  split
  case h_6 =>
    refine (left.expect _).bind fun left => ?_
    refine (typeExpr_together left).bind fun left => ?_
    exact (left.expect _).bind fun left => .ok ⟨rfl, rfl, left⟩
  case h_7 =>
    refine (left.expect _).bind fun left => ?_
    refine (typeExpr_together left).bind fun left => ?_
    refine (left.expect _).bind fun left => ?_
    exact (typeExpr_together left).bind fun left => .ok ⟨rfl, rfl, left⟩
  case h_8 => exact .stuck
  all_goals exact .ok ⟨rfl, rfl, left⟩
termination_by u.size

theorem filter_binaryOp?_of_closers {kind : TokenKind} (ends : kind ∈ closers) (power : Nat) :
    (binaryOp? kind).filter (power ≤ ·.leftPower) = none := by
  simp only [closers, List.mem_cons, List.not_mem_nil, or_false] at ends
  rcases ends with rfl | rfl <;> rfl

mutual

/-- A statement that ends where the text does is of no use where something has to follow. -/
theorem statement_bind_together {u p q : Parser} (beside : Beside after after' u p q)
    {κ μ ν : Type} {S : κ → μ → ν → Prop} {f : Parsed u.size Expr → Attempt κ}
    {g : Parsed p.size Expr → Attempt μ} {h : Parsed q.size Expr → Attempt ν}
    (fails : ∀ x v s, v.rest = [] → Fails (f ⟨x, v, s⟩))
    (rest : ∀ {x u s p s' q s''}, u.rest ≠ [] → Beside after after' u p q →
      Together S (f ⟨x, u, s⟩) (g ⟨x, p, s'⟩) (h ⟨x, q, s''⟩)) :
    Together S (u.statement >>= f) (p.statement >>= g) (q.statement >>= h) := by
  have go {x u s p s' q s''} (left : Beside after after' u p q) :
      Together S (f ⟨x, u, s⟩) (g ⟨x, p, s'⟩) (h ⟨x, q, s''⟩) := by
    by_cases some : u.rest = []
    · exact .of_fails (fails x u s some)
    · exact rest some left
  rw [statement, statement, statement, bind_assoc, bind_assoc, bind_assoc]
  refine beside.takeIf_bind (fun _ token ends => ?_) ?_ fun {x v s _ _ _ _} left => ?_
  · simp only [closers, List.mem_cons, List.not_mem_nil, or_false] at ends
    rcases ends with eq | eq <;> rw [eq]
  · exact (expression_together beside).bind go
  obtain ⟨kind, token⟩ := x
  dsimp only
  rw [bind_assoc, bind_assoc, bind_assoc]
  by_cases some : v.rest = []
  · refine .of_fails (.peek_bind some ?_)
    split
    case h_4 =>
      rw [bind_assoc]
      exact (Fails.of_nil some _).bind _
    all_goals exact fails _ v s some
  refine (left.peek some).bind fun t t' t'' same => ?_
  obtain ⟨rfl, rfl⟩ := same
  split
  case h_4 =>
    rw [bind_assoc, bind_assoc, bind_assoc]
    exact (expression_together left).bind fun left => go left
  all_goals exact go left
termination_by u.size * 8 + 4

theorem expression_together {u p q : Parser} (beside : Beside after after' u p q) :
    ReadTogether after after' u.expression p.expression q.expression := by
  by_cases some : u.rest = []
  · exact .of_fails (.of_nil some u.expression)
  rw [expression, expression, expression]
  refine (beside.peek some).bind fun t t' t'' same => ?_
  obtain ⟨rfl, rfl⟩ := same
  refine beside.nested fun within => ?_
  have inner := expressionFrom_together within t''.kind
  generalize u.descend.expressionFrom t''.kind = a at inner
  generalize p.descend.expressionFrom t''.kind = b at inner
  generalize q.descend.expressionFrom t''.kind = c at inner
  cases inner with
  | ok same => exact .ok ⟨same.first, same.second, same.parser.ascend⟩
  | stuck => exact .stuck
  | tooDeep cause => exact .tooDeep cause
termination_by u.size * 8 + 3

theorem expressionFrom_together {u p q : Parser} (beside : Beside after after' u p q)
    (first : TokenKind) : ReadTogether after after' (u.expressionFrom first)
      (p.expressionFrom first) (q.expressionFrom first) := by
  rw [expressionFrom.eq_def, expressionFrom.eq_def, expressionFrom.eq_def]
  split
  case h_1 | h_2 =>
    exact (declaration_together beside).bind fun left => .ok ⟨rfl, rfl, left⟩
  case h_3 => exact assignment_together beside
  case h_4 => exact (conditional_together beside).bind fun left => .ok ⟨rfl, rfl, left⟩
  case h_5 => exact loop_together beside
  case h_6 => exact (block_together beside).bind fun left => .ok ⟨rfl, rfl, left⟩
  case h_7 => exact operation_together beside 0
termination_by u.size * 8 + 2

theorem block_together {u p q : Parser} (beside : Beside after after' u p q) :
    ReadTogether after after' u.block p.block q.block := by
  rw [block, block, block]
  refine (beside.expect _).bind fun left => ?_
  exact (blockRest_together left).bind fun left => .ok ⟨rfl, rfl, left⟩
termination_by u.size * 8

theorem blockRest_together {u p q : Parser} (beside : Beside after after' u p q) :
    ReadTogether after after' u.blockRest p.blockRest q.blockRest := by
  by_cases some : u.rest = []
  · exact .of_fails (.of_nil some u.blockRest)
  rw [blockRest, blockRest, blockRest]
  refine (beside.peek some).bind fun t t' t'' same => ?_
  obtain ⟨rfl, rfl⟩ := same
  dsimp only
  split
  · exact (beside.expect _).bind fun left => .ok ⟨rfl, rfl, left⟩
  · refine (beside.expect _).bind fun left => ?_
    exact (blockRest_together left).bind fun left => .ok ⟨rfl, rfl, left⟩
  · exact .stuck
  · refine statement_bind_together beside ?_ fun some left => ?_
    · intro x v s nil
      exact .eat_bind nil ((Fails.of_nil nil _).bind _)
    · refine left.eat_bind (fun nil => absurd nil some) ?_ fun left => ?_
      · exact (left.expect _).bind fun left => .ok ⟨rfl, rfl, left⟩
      · exact (blockRest_together left).bind fun left => .ok ⟨rfl, rfl, left⟩
termination_by u.size * 8 + 5

theorem declaration_together {u p q : Parser} (beside : Beside after after' u p q) :
    ReadTogether after after' u.declaration p.declaration q.declaration := by
  rw [declaration, declaration, declaration]
  refine (beside.next _).bind fun left => ?_
  dsimp only
  split
  case h_3 => exact .stuck
  case h_1 | h_2 =>
    refine left.expectIdent.bind fun left => ?_
    refine (typeExpr_together left).bind fun left => ?_
    refine (left.expect _).bind fun left => ?_
    exact (expression_together left).bind fun left => .ok ⟨rfl, rfl, left⟩
termination_by u.size * 8

theorem assignment_together {u p q : Parser} (beside : Beside after after' u p q) :
    ReadTogether after after' u.assignment p.assignment q.assignment := by
  rw [assignment, assignment, assignment]
  refine (beside.expect _).bind fun left => ?_
  refine left.expectIdent.bind fun left => ?_
  refine (left.next _).bind fun left => ?_
  dsimp only
  split
  · exact .stuck
  · exact (expression_together left).bind fun left => .ok ⟨rfl, rfl, left⟩
termination_by u.size * 8

theorem conditional_together {u p q : Parser} (beside : Beside after after' u p q) :
    ReadTogether after after' u.conditional p.conditional q.conditional := by
  rw [conditional, conditional, conditional]
  refine (beside.expect _).bind fun left => ?_
  refine (expression_together left).bind fun left => ?_
  refine (left.expect _).bind fun left => ?_
  refine (block_together left).bind fun left => ?_
  refine left.eat_bind (fun _ => by decide) (.ok ⟨rfl, rfl, left⟩) fun {_ v _ _ _ _ _} left => ?_
  by_cases some : v.rest = []
  · refine .of_fails (.peek_bind some ?_)
    dsimp only
    split
    · exact (Fails.of_nil some _).bind _
    · exact (Fails.of_nil some _).bind _
  refine (left.peek some).bind fun t t' t'' same => ?_
  obtain ⟨rfl, rfl⟩ := same
  dsimp only
  split
  · exact (conditional_together left).bind fun left => .ok ⟨rfl, rfl, left⟩
  · exact (block_together left).bind fun left => .ok ⟨rfl, rfl, left⟩
termination_by u.size * 8

theorem loop_together {u p q : Parser} (beside : Beside after after' u p q) :
    ReadTogether after after' u.loop p.loop q.loop := by
  rw [loop, loop, loop]
  refine (beside.expect _).bind fun left => ?_
  refine (declarations_together left).bind fun left => ?_
  exact (block_together left).bind fun left => .ok ⟨rfl, rfl, left⟩
termination_by u.size * 8

theorem declarations_together {u p q : Parser} (beside : Beside after after' u p q) :
    ReadTogether after after' u.declarations p.declarations q.declarations := by
  rw [declarations, declarations, declarations]
  refine (declaration_together beside).bind fun left => ?_
  refine left.eat_bind (fun _ => by decide) (.ok ⟨rfl, rfl, left⟩) fun left => ?_
  exact (declarations_together left).bind fun left => .ok ⟨rfl, rfl, left⟩
termination_by u.size * 8 + 1

theorem operation_together {u p q : Parser} (beside : Beside after after' u p q) (power : Nat) :
    ReadTogether after after' (u.operation power) (p.operation power) (q.operation power) := by
  by_cases some : u.rest = []
  · exact .of_fails (.of_nil some (u.operation power))
  rw [operation, operation, operation]
  refine (beside.peek some).bind fun t t' t'' same => ?_
  obtain ⟨rfl, rfl⟩ := same
  refine beside.nested fun within => ?_
  refine (operand_together within).bind fun {lhs v shorter _ _ _ _} left => ?_
  have shorter : v.size < u.size := shorter
  exact (operationRest_together left power lhs).bind fun left => .ok ⟨rfl, rfl, left.ascend⟩
termination_by u.size * 8 + 1

theorem operationRest_together {u p q : Parser} (beside : Beside after after' u p q) (power : Nat)
    (lhs : Expr) : ReadTogether after after' (u.operationRest power lhs)
      (p.operationRest power lhs) (q.operationRest power lhs) := by
  rw [operationRest, operationRest, operationRest]
  refine beside.takeIf_bind (fun _ token ends => filter_binaryOp?_of_closers ends power)
    (.ok ⟨rfl, rfl, beside⟩) fun left => ?_
  refine (operation_together left _).bind fun left => ?_
  exact (operationRest_together left power _).bind fun left => .ok ⟨rfl, rfl, left⟩
termination_by u.size * 8

theorem operand_together {u p q : Parser} (beside : Beside after after' u p q) :
    ReadTogether after after' u.operand p.operand q.operand := by
  rw [operand, operand, operand]
  refine (beside.next _).bind fun left => ?_
  dsimp only
  rw [(beside.lexeme _).1, (beside.lexeme _).2]
  split
  case h_1 | h_2 | h_3 =>
    split
    · exact .ok ⟨rfl, rfl, left⟩
    · exact .stuck
  case h_4 | h_5 => exact .ok ⟨rfl, rfl, left⟩
  case h_6 =>
    refine left.eat_bind (fun _ => by decide) (.ok ⟨rfl, rfl, left⟩) fun left => ?_
    exact (expressions_together left _).bind fun left => .ok ⟨rfl, rfl, left⟩
  case h_7 => exact (expressions_together left _).bind fun left => .ok ⟨rfl, rfl, left⟩
  case h_8 => exact (entries_together left).bind fun left => .ok ⟨rfl, rfl, left⟩
  case h_9 | h_10 => exact (operation_together left _).bind fun left => .ok ⟨rfl, rfl, left⟩
  case h_11 =>
    refine (expression_together left).bind fun left => ?_
    exact (left.expect _).bind fun left => .ok ⟨rfl, rfl, left⟩
  case h_12 => exact .stuck
termination_by u.size * 8

theorem expressions_together {u p q : Parser} (beside : Beside after after' u p q)
    (closing : TokenKind) : ReadTogether after after' (u.expressions closing)
      (p.expressions closing) (q.expressions closing) := by
  by_cases some : u.rest = []
  · exact .of_fails (.of_nil some (u.expressions closing))
  rw [expressions, expressions, expressions]
  refine beside.eat_bind (fun none => absurd none some) ?_ fun left => .ok ⟨rfl, rfl, left⟩
  refine (expression_together beside).bind fun left => ?_
  refine left.eat_bind (fun _ => by decide) ?_ fun left => ?_
  · exact (left.expect _).bind fun left => .ok ⟨rfl, rfl, left⟩
  · exact (expressions_together left closing).bind fun left => .ok ⟨rfl, rfl, left⟩
termination_by u.size * 8 + 4

theorem entries_together {u p q : Parser} (beside : Beside after after' u p q) :
    ReadTogether after after' u.entries p.entries q.entries := by
  rw [entries, entries, entries]
  refine beside.eat_bind (fun _ => by decide) ?_ fun left => .ok ⟨rfl, rfl, left⟩
  refine (expression_together beside).bind fun left => ?_
  refine (left.expect _).bind fun left => ?_
  refine (expression_together left).bind fun left => ?_
  refine left.eat_bind (fun _ => by decide) ?_ fun left => ?_
  · exact (left.expect _).bind fun left => .ok ⟨rfl, rfl, left⟩
  · exact (entries_together left).bind fun left => .ok ⟨rfl, rfl, left⟩
termination_by u.size * 8 + 4

end

end ExprLang.Parser
