import ExprLang.Proofs.Precedence.Pieces

set_option autoImplicit false

/-!
How operators group what stands between them. The tree that is read has the pieces of the text, in
the same order; and at each operator in it, how tightly operators bind decides what is an operand.
-/

namespace ExprLang

theorem BinaryOp.word_mem_binaryKinds (op : BinaryOp) : op.word.1 ∈ binaryKinds := by
  cases op <;> decide

namespace Parser

variable {p r : Parser} {token : Token} {rest : List Item} {pieces : List Piece}

/-! ### The next operator -/

/-- The operator that comes next. -/
def ahead? (p : Parser) : Option BinaryOp :=
  match p.rest with
  | .ok token :: _ => binaryOp? token.kind
  | _ => none

theorem kind_of_binaryOp {kind : TokenKind} {op : BinaryOp} (h : binaryOp? kind = some op) :
    kind = op.word.1 := by
  unfold binaryOp? at h
  split at h
  case h_14 => cases h
  all_goals
    cases h
    rfl

theorem ahead_of_rest (first : p.rest = .ok token :: rest) : p.ahead? = binaryOp? token.kind := by
  rw [ahead?, first]

/-- An operator that is left where it is binds too little. -/
theorem lt_of_takeOperator_eq_none {power : Nat} (read : p.takeOperator? power = .ok none) :
    ∀ o ∈ p.ahead?, o.leftPower < power := by
  intro o next
  unfold ahead? at next
  split at next
  next token rest first =>
    rw [takeOperator?, takeIf_of_rest first] at read
    have refused := Option.map_eq_none_iff.1 (Except.ok.inj read)
    rw [Option.mem_def.1 next, Option.filter_eq_none_iff] at refused
    have weak := refused o rfl
    simpa using weak
  next => cases next

theorem takeOperator_eq_some {power : Nat} {op : BinaryOp} {q : Parser} {shorter : q.size < p.size}
    (read : p.takeOperator? power = .ok (some ⟨op, q, shorter⟩)) :
    power ≤ op.leftPower ∧ p.ahead? = some op ∧
      ∃ token rest, p.rest = .ok token :: rest ∧ token.kind = op.word.1 ∧ q = { p with rest } := by
  unfold takeOperator? takeIf? at read
  split at read
  next => cases read
  next => cases read
  next token rest first =>
    split at read
    next accepted =>
      cases read
      obtain ⟨known, strong⟩ := Option.filter_eq_some_iff.1 accepted
      refine ⟨of_decide_eq_true strong, (ahead_of_rest first).trans known, ?_⟩
      exact ⟨token, rest, first, kind_of_binaryOp known, rfl⟩
    next => cases read

/-! ### Reading operations -/

/-- The tree `e` has been read of the pieces, and `p` stands before the others. An operator that
comes next does not belong under any prefix operator at the end of `e`. -/
structure Joined (pieces : List Piece) (e : Expr) (p r : Parser) : Prop where
  spelled : ∃ others, pieces = e.pieces ++ others ∧ p.Spells others r
  grouped : e.Grouped
  edge : ∀ o ∈ p.ahead?, ∀ u ∈ e.rightEdge, o.leftPower < u.power

/-- The operators of the given power and above have all been taken in, and none below. -/
structure Exhausted (power : Nat) (e : Expr) (p : Parser) : Prop where
  joint : ∀ o ∈ e.joint?, power ≤ o.leftPower
  ahead : ∀ o ∈ p.ahead?, o.leftPower < power

theorem joined_atom {e : Expr} (unit : e.isAtom = true) (spelled : p.Spells pieces r) :
    Joined (.atom e :: pieces) e p r ∧ e.joint? = none := by
  cases e with
  | literal | name | call | list | map =>
    exact ⟨⟨⟨pieces, rfl, spelled⟩, trivial, fun _ _ _ on => absurd on List.not_mem_nil⟩, rfl⟩
  | _ => cases unit

/-- A prefix operator takes in all that binds at least as tightly. -/
theorem Joined.unary {e : Expr} {u : UnaryOp} (h : Joined pieces e p r)
    (full : Exhausted u.power e p) (span : Span) :
    Joined (.operator u.word.1 :: pieces) (.unary u e span) p r := by
  obtain ⟨others, rfl, spelled⟩ := h.spelled
  refine ⟨⟨others, rfl, spelled⟩, ⟨h.grouped, full.joint⟩, ?_⟩
  intro o next v on
  rcases List.mem_cons.1 on with rfl | on
  · exact full.ahead o next
  · exact h.edge o next v on

/-- An operator between operands: what comes after the right one binds no more tightly. -/
theorem Joined.binary {q : Parser} {lhs rhs : Expr} {op : BinaryOp} {others : List Piece}
    (left : Joined (lhs.pieces ++ .operator op.word.1 :: others) lhs p r)
    (next : p.ahead? = some op) (falling : ∀ l ∈ lhs.joint?, op.leftPower ≤ l.leftPower)
    (right : Joined others rhs q r) (full : Exhausted op.rightPower rhs q) (span : Span) :
    Joined (lhs.pieces ++ .operator op.word.1 :: others) (.binary op lhs rhs span) q r := by
  obtain ⟨others, rfl, spelled⟩ := right.spelled
  have grouped := And.intro left.grouped right.grouped
  have edge := left.edge op next
  refine ⟨⟨others, ?_, spelled⟩, ⟨grouped, falling, full.joint, edge⟩, right.edge⟩
  simp only [Expr.pieces, List.append_assoc, List.cons_append]

theorem Joined.ascend {e : Expr} (h : Joined pieces e p r) : Joined pieces e p.ascend r := by
  obtain ⟨others, eq, spelled⟩ := h.spelled
  exact ⟨⟨others, eq, spelled.of_afresh rfl⟩, h.grouped, h.edge⟩

mutual

theorem operand_joined {p q r : Parser} {pieces : List Piece} {e : Expr} {shorter : q.size < p.size}
    (spelled : p.Spells pieces r) (read : p.operand = .ok ⟨e, q, shorter⟩)
    (inside : r.size ≤ q.size) : Joined pieces e q r ∧ e.joint? = none := by
  cases spelled with
  | done same =>
    have size := size_eq_of_afresh same
    omega
  | operator known first others =>
    obtain ⟨u, kind⟩ := exists_unary (mem_unaryKinds_of_operand read first known)
    rw [operand_of_unary u first kind] at read
    obtain ⟨⟨operand, q, _⟩, inner, same⟩ := exists_of_bind_eq_ok read
    cases same
    have shorter := size_lt_of_rest first
    obtain ⟨joined, full⟩ := operation_joined others inner inside
    rw [kind]
    exact ⟨joined.unary full _, rfl⟩
  | atom free unit others =>
    -- Read at the limit or without one, it is the same atom.
    have same := operand_filters p.roomier_afresh
    rw [free, read] at same
    cases same with
    | ok same =>
      obtain rfl := same.value
      exact joined_atom unit (others.of_afresh same.parser.roomier.afresh_eq.symm)
termination_by p.size * 8

theorem operation_joined {p q r : Parser} {pieces : List Piece} {power : Nat} {e : Expr}
    {shorter : q.size < p.size} (spelled : p.Spells pieces r)
    (read : p.operation power = .ok ⟨e, q, shorter⟩) (inside : r.size ≤ q.size) :
    Joined pieces e q r ∧ Exhausted power e q := by
  rw [operation] at read
  obtain ⟨_, -, read⟩ := exists_of_bind_eq_ok read
  split at read
  next => cases read
  next =>
    obtain ⟨⟨lhs, q₁, shorter₁⟩, operand, read⟩ := exists_of_bind_eq_ok read
    obtain ⟨⟨e, q₂, shorter₂⟩, chain, same⟩ := exists_of_bind_eq_ok read
    cases same
    have shorter₁ : q₁.size < p.size := shorter₁
    have within : r.size ≤ q₁.size := Nat.le_trans inside (Nat.le_of_lt_succ shorter₂)
    have here : p.descend.Spells pieces r := spelled.of_afresh rfl
    obtain ⟨first, alone⟩ := operand_joined here operand within
    obtain ⟨joined, full⟩ := operationRest_joined first (by simp [alone]) chain inside
    exact ⟨joined.ascend, full.joint, full.ahead⟩
termination_by p.size * 8 + 1

theorem operationRest_joined {p q r : Parser} {pieces : List Piece} {power : Nat} {lhs e : Expr}
    {shorter : q.size < p.size + 1} (before : Joined pieces lhs p r)
    (top : ∀ l ∈ lhs.joint?, power ≤ l.leftPower ∧ ∀ o ∈ p.ahead?, o.leftPower ≤ l.leftPower)
    (read : p.operationRest power lhs = .ok ⟨e, q, shorter⟩) (inside : r.size ≤ q.size) :
    Joined pieces e q r ∧ Exhausted power e q := by
  rw [operationRest] at read
  obtain ⟨next, taken, read⟩ := exists_of_bind_eq_ok read
  cases next with
  | none =>
    cases read
    exact ⟨before, fun l here => (top l here).1, lt_of_takeOperator_eq_none taken⟩
  | some next =>
    obtain ⟨op, q₁, shorter₁⟩ := next
    obtain ⟨⟨rhs, q₂, shorter₂⟩, operand, read⟩ := exists_of_bind_eq_ok read
    obtain ⟨⟨e, q₃, shorter₃⟩, chain, same⟩ := exists_of_bind_eq_ok read
    cases same
    obtain ⟨enough, ahead, token, rest, first, kind, rfl⟩ := takeOperator_eq_some taken
    have within : r.size ≤ q₂.size := Nat.le_trans inside (Nat.le_of_lt_succ shorter₃)
    obtain ⟨others, rfl, spelled⟩ := before.spelled
    have known : token.kind ∈ unaryKinds ++ binaryKinds :=
      List.mem_append_right _ (kind ▸ op.word_mem_binaryKinds)
    obtain ⟨others, rfl, after⟩ := spelled.operator_first first known (by omega)
    rw [kind] at before ⊢
    obtain ⟨right, full⟩ := operation_joined after operand within
    have falling := fun l here => (top l here).2 op ahead
    have joined := before.binary ahead falling right full (lhs.span.merge rhs.span)
    refine operationRest_joined joined ?_ chain inside
    -- The new operator is as strong as asked, and what comes next is no stronger than it.
    rintro _ ⟨⟩
    exact ⟨enough, fun o next => Nat.le_of_lt_succ (full.ahead o next)⟩
termination_by p.size * 8

end

theorem expressionFrom_of_operator {k : TokenKind} (known : k ∈ unaryKinds ++ binaryKinds)
    (p : Parser) : p.expressionFrom k = p.operation 0 := by
  rw [expressionFrom.eq_def]
  split
  case h_7 => rfl
  all_goals exact absurd known (by decide)

/-- An expression that is written with such pieces is an operation. -/
theorem Spells.expressionFrom_eq (h : p.Spells pieces r) (inside : r.size < p.size)
    (peeked : p.peek = .ok token) (q : Parser) : q.expressionFrom token.kind = q.operation 0 := by
  cases h with
  | done same => exact absurd (size_eq_of_afresh same) (Nat.ne_of_gt inside)
  | operator known first _ =>
    rw [peek_of_rest first] at peeked
    cases peeked
    exact expressionFrom_of_operator known q
  | atom read _ _ =>
    obtain ⟨_, _, first, known⟩ := operand_first read
    have first : p.rest = _ := first
    rw [peek_of_rest first] at peeked
    cases peeked
    exact expressionFrom_of_testKinds known q

end Parser

/-- An operation is read as a tree of the same pieces, and its operators are grouped by how tightly
they bind. -/
theorem operations_group_by_power {p q : Parser} {pieces : List Piece} {e : Expr}
    {shorter : q.size < p.size} (spelled : p.Spells pieces q)
    (read : p.expression = .ok ⟨e, q, shorter⟩) : e.pieces = pieces ∧ e.Grouped := by
  rw [Parser.expression] at read
  obtain ⟨first, peeked, read⟩ := Parser.exists_of_bind_eq_ok read
  split at read
  next => cases read
  next =>
    rw [spelled.expressionFrom_eq shorter peeked] at read
    split at read
    next e q' shorter' operation =>
      cases read
      have here : p.descend.Spells pieces q'.ascend := spelled.of_afresh rfl
      obtain ⟨joined, -⟩ := Parser.operation_joined here operation (Nat.le_refl _)
      obtain ⟨others, rfl, left⟩ := joined.spelled
      -- Nothing is left, since every piece takes a token.
      have length : q'.size + others.length ≤ q'.size := left.size_le
      obtain rfl : others = [] := List.eq_nil_of_length_eq_zero (by omega)
      exact ⟨(List.append_nil _).symm, joined.grouped⟩
    next => cases read

section Sample

/-- The text `not a - b - -c _ 1 = f(2)`, after so many of its tokens. -/
def sampleAt (n : Nat) : Parser :=
  let start := Parser.ofSourceWith none "not a - b - -c _ 1 = f(2)"
  { start with rest := start.rest.drop n }

private def letter (name : String) (start : UInt32) : Expr :=
  .name ⟨name, ⟨start, 1⟩⟩ ⟨start, 1⟩

private def digit (value : Int) (start : UInt32) : Expr :=
  .literal (.int value) ⟨start, 1⟩

def samplePieces : List Piece :=
  [.operator (.keyword .not), .atom (letter "a" 4), .operator (.symbol .minus),
   .atom (letter "b" 8), .operator (.symbol .minus), .operator (.symbol .minus),
   .atom (letter "c" 13), .operator (.symbol .underscore), .atom (digit 1 17),
   .operator (.symbol .equal), .atom (.call ⟨"f", ⟨21, 1⟩⟩ [digit 2 23] ⟨21, 4⟩)]

private theorem sampleAt_operator {n : Nat} {pieces : List Piece} {r : Parser} (token : Token)
    (first : (sampleAt n).rest = .ok token :: (sampleAt (n + 1)).rest)
    (known : token.kind ∈ unaryKinds ++ binaryKinds) (others : (sampleAt (n + 1)).Spells pieces r) :
    (sampleAt n).Spells (.operator token.kind :: pieces) r :=
  .operator known first others

theorem sampleAt_spells : (sampleAt 0).Spells samplePieces (sampleAt 14) := by
  refine sampleAt_operator ⟨_, ⟨0, 3⟩⟩ (by with_unfolding_all rfl) (by decide) ?_
  refine .atom (q := sampleAt 2) (by with_unfolding_all rfl) rfl ?_
  refine sampleAt_operator ⟨_, ⟨6, 1⟩⟩ (by with_unfolding_all rfl) (by decide) ?_
  refine .atom (q := sampleAt 4) (by with_unfolding_all rfl) rfl ?_
  refine sampleAt_operator ⟨_, ⟨10, 1⟩⟩ (by with_unfolding_all rfl) (by decide) ?_
  refine sampleAt_operator ⟨_, ⟨12, 1⟩⟩ (by with_unfolding_all rfl) (by decide) ?_
  refine .atom (q := sampleAt 7) (by with_unfolding_all rfl) rfl ?_
  refine sampleAt_operator ⟨_, ⟨15, 1⟩⟩ (by with_unfolding_all rfl) (by decide) ?_
  refine .atom (q := sampleAt 9) (by with_unfolding_all rfl) rfl ?_
  refine sampleAt_operator ⟨_, ⟨19, 1⟩⟩ (by with_unfolding_all rfl) (by decide) ?_
  refine .atom (q := sampleAt 14) (by with_unfolding_all rfl) rfl ?_
  exact .done rfl

theorem sample_groups_by_power :
    (sampleAt 0).Spells samplePieces (sampleAt 14) ∧
      ∃ e shorter, (sampleAt 0).expression = .ok ⟨e, sampleAt 14, shorter⟩ ∧
        e.pieces = samplePieces ∧ e.Grouped := by
  obtain ⟨e, shorter, read⟩ :
      ∃ e shorter, (sampleAt 0).expression = .ok ⟨e, sampleAt 14, shorter⟩ :=
    ⟨_, _, by with_unfolding_all rfl⟩
  exact ⟨sampleAt_spells, e, shorter, read, operations_group_by_power sampleAt_spells read⟩

end Sample

end ExprLang
