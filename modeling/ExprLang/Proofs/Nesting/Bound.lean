import ExprLang.Proofs.Nesting.Height
import ExprLang.Proofs.Readings

set_option autoImplicit false

/-!
What a limit on nesting does for the tree. Between two looks at the limit a way down the tree makes
at most three guarded steps: to a block, to a statement in it and to the value of an exit. The depth
comes back to where it was when something has been read.
-/

namespace ExprLang

/-- What may still be read is worth so many guarded steps. -/
def Parser.room (limit depth : Nat) : Nat :=
  3 * (limit - depth)

open ExprLang.Parser (room) in
/-- What is read so deep in is no higher than the limit allows. -/
def Reading.Bounded (limit depth : Nat) : Reading → Prop
  | .type _ => True
  | .statement e => e.heightBy .guarded ≤ room limit depth + 1
  | .expression e | .operation e => e.heightBy .guarded ≤ room limit depth
  | .inner e => e.heightBy .guarded ≤ room limit depth + 3
  | .block b => b.heightBy .guarded ≤ room limit depth + 2
  | .blockRest statements _ => Expr.heightAllBy .guarded statements ≤ room limit depth + 1
  | .declaration d => d.heightBy .guarded ≤ room limit depth
  | .declarations ds => Declaration.heightAllBy .guarded ds ≤ room limit depth
  | .conditional c _ => c.heightBy .guarded ≤ room limit depth + 2
  | .operationRest lhs e => lhs.heightBy .guarded ≤ room limit depth + 1 →
      e.heightBy .guarded ≤ room limit depth + 1
  | .operand e => e.heightBy .guarded ≤ room limit depth + 1
  | .row _ es _ => Expr.heightAllBy .guarded es ≤ room limit depth
  | .entries es _ => Expr.heightEntriesBy .guarded es ≤ room limit depth
  | .program p => p.heightBy .guarded ≤ room limit depth + 1

namespace Parser

variable {limit depth : Nat} {p q : Parser}

/-- So deep in, under the limit. -/
structure At (limit depth : Nat) (p : Parser) : Prop where
  limit : p.limit = some limit
  depth : p.depth = depth

namespace At

theorem descend (here : p.At limit depth) : p.descend.At limit (depth + 1) :=
  ⟨here.limit, congrArg (· + 1) here.depth⟩

theorem ascend (here : p.At limit (depth + 1)) : p.ascend.At limit depth :=
  ⟨here.limit, congrArg (· - 1) here.depth⟩

theorem not_deep (here : p.At limit depth) (fits : ¬ p.isTooDeep = true) : depth ≤ limit := by
  unfold isTooDeep at fits
  rw [here.limit, here.depth] at fits
  simpa using fits

theorem passes (here : p.At limit depth) {kind : TokenKind} {token : Token}
    (first : p.Passes kind token q) : q.At limit depth := by
  rw [first.same]
  exact ⟨here.limit, here.depth⟩

end At

/-- Where there is room for another level, it takes three steps of what is left. -/
theorem room_succ {limit depth : Nat} (fits : depth + 1 ≤ limit) :
    room limit (depth + 1) + 3 = room limit depth := by
  unfold room
  omega

/-- A compound assignment writes an operation, which is one step more than its right operand. -/
theorem heightBy_assignedValue {target : Ident} {op : Option BinaryOp} {value : Expr} {n : Nat}
    (bound : value.heightBy .guarded ≤ n) :
    (assignedValue target op value).heightBy .guarded ≤ n + 1 := by
  cases op with
  | none => exact Nat.le_succ_of_le bound
  | some op => exact Nat.max_le.2 ⟨Nat.le_add_left 1 n, Nat.add_le_add_right bound 1⟩

/-- What is read is bounded by the room there is for it, and leaves the parser as deep in as it
was. -/
theorem Reaches.bounded {x : Reading} (h : p.Reaches x q) (here : p.At limit depth) :
    x.Bounded limit depth ∧ q.At limit depth := by
  induction h generalizing depth with
  | noneType name | intType name | decType name | strType name | boolType name =>
    exact ⟨trivial, here.passes name⟩
  | listType name opening _ closing ih =>
    obtain ⟨-, left⟩ := ih ((here.passes name).passes opening)
    exact ⟨trivial, left.passes closing⟩
  | mapType name opening _ closing _ ih ih' =>
    obtain ⟨-, left⟩ := ih ((here.passes name).passes opening)
    obtain ⟨-, left⟩ := ih' (left.passes closing)
    exact ⟨trivial, left⟩
  | exit word => exact ⟨Nat.le_add_left 1 _, here.passes word⟩
  | exitWith word _ ih =>
    obtain ⟨bound, left⟩ := ih (here.passes word)
    exact ⟨Nat.add_le_add_right bound 1, left⟩
  | evaluated _ ih =>
    obtain ⟨bound, left⟩ := ih here
    exact ⟨Nat.le_succ_of_le bound, left⟩
  | nested fits _ ih =>
    obtain ⟨bound, left⟩ := ih here.descend
    exact ⟨Nat.le_trans bound (Nat.le_of_eq (room_succ (here.descend.not_deep fits))), left.ascend⟩
  | declared _ ih =>
    obtain ⟨bound, left⟩ := ih here
    exact ⟨Nat.le_trans (Nat.add_le_add_right bound 1) (Nat.add_le_add_left (by decide) _), left⟩
  | assigned word target sign _ _ ih =>
    obtain ⟨bound, left⟩ := ih (((here.passes word).passes target).passes sign)
    exact ⟨Nat.le_succ_of_le (Nat.add_le_add_right (heightBy_assignedValue bound) 1), left⟩
  | branched _ ih | grouped _ ih =>
    obtain ⟨bound, left⟩ := ih here
    exact ⟨Nat.add_le_add_right bound 1, left⟩
  | looped word _ _ ih ih' =>
    obtain ⟨first, left⟩ := ih (here.passes word)
    obtain ⟨second, left⟩ := ih' left
    have first := Nat.le_trans first (Nat.le_add_right _ 2)
    exact ⟨Nat.add_le_add_right (Nat.max_le.2 ⟨first, second⟩) 1, left⟩
  | tested _ ih =>
    obtain ⟨bound, left⟩ := ih here
    exact ⟨Nat.le_trans bound (Nat.le_add_right _ 3), left⟩
  | block opening _ ih =>
    obtain ⟨bound, left⟩ := ih (here.passes opening)
    exact ⟨Nat.add_le_add_right bound 1, left⟩
  | blockEnd closing => exact ⟨Nat.zero_le _, here.passes closing⟩
  | blockSkip semicolon _ ih => exact ih (here.passes semicolon)
  | blockLast _ closing ih =>
    obtain ⟨bound, left⟩ := ih here
    exact ⟨Nat.max_le.2 ⟨bound, Nat.zero_le _⟩, left.passes closing⟩
  | blockMore _ semicolon _ ih ih' =>
    obtain ⟨bound, left⟩ := ih here
    obtain ⟨others, left⟩ := ih' (left.passes semicolon)
    exact ⟨Nat.max_le.2 ⟨bound, others⟩, left⟩
  | @declaration _ _ _ _ _ _ _ _ _ _ type _ word name _ sign _ ih ih' =>
    obtain ⟨-, left⟩ := ih ((here.passes word).passes name)
    obtain ⟨bound, left⟩ := ih' (left.passes sign)
    refine ⟨?_, left⟩
    rw [Reading.Bounded, Declaration.heightBy, type.heightBy_guarded]
    exact Nat.max_le.2 ⟨Nat.zero_le _, bound⟩
  | lastDeclaration _ ih =>
    obtain ⟨bound, left⟩ := ih here
    exact ⟨Nat.max_le.2 ⟨bound, Nat.zero_le _⟩, left⟩
  | moreDeclarations _ comma _ ih ih' =>
    obtain ⟨bound, left⟩ := ih here
    obtain ⟨others, left⟩ := ih' (left.passes comma)
    exact ⟨Nat.max_le.2 ⟨bound, others⟩, left⟩
  | only word _ then_ _ ih ih' =>
    obtain ⟨first, left⟩ := ih (here.passes word)
    obtain ⟨second, left⟩ := ih' (left.passes then_)
    exact ⟨Nat.max_le.2 ⟨Nat.le_trans first (Nat.le_add_right _ 2), second⟩, left⟩
  | withElseIf word _ then_ _ else_ _ ih ih' ih''
  | withElse word _ then_ _ else_ _ ih ih' ih'' =>
    obtain ⟨first, left⟩ := ih (here.passes word)
    obtain ⟨second, left⟩ := ih' (left.passes then_)
    obtain ⟨third, left⟩ := ih'' (left.passes else_)
    have first := Nat.le_trans first (Nat.le_add_right _ 2)
    exact ⟨Nat.max_le.2 ⟨first, Nat.max_le.2 ⟨second, third⟩⟩, left⟩
  | operation fits _ _ ih ih' =>
    obtain ⟨first, left⟩ := ih here.descend
    obtain ⟨bound, left⟩ := ih' left
    have within := Nat.le_trans (bound first) (Nat.add_le_add_left (by decide : 1 ≤ 3) _)
    exact ⟨Nat.le_trans within (Nat.le_of_eq (room_succ (here.descend.not_deep fits))), left.ascend⟩
  | operationEnd => exact ⟨id, here⟩
  | operationMore sign _ _ _ ih ih' =>
    obtain ⟨second, left⟩ := ih (here.passes sign)
    obtain ⟨bound, left⟩ := ih' left
    exact ⟨fun first => bound (Nat.max_le.2 ⟨first, Nat.add_le_add_right second 1⟩), left⟩
  | int first | dec first | string first | true first | false first | name first =>
    exact ⟨Nat.le_add_left 1 _, here.passes first⟩
  | call first opening _ ih =>
    obtain ⟨bound, left⟩ := ih ((here.passes first).passes opening)
    exact ⟨Nat.add_le_add_right bound 1, left⟩
  | list opening _ ih | map opening _ ih =>
    obtain ⟨bound, left⟩ := ih (here.passes opening)
    exact ⟨Nat.add_le_add_right bound 1, left⟩
  | unary sign _ ih =>
    obtain ⟨bound, left⟩ := ih (here.passes sign)
    exact ⟨Nat.add_le_add_right bound 1, left⟩
  | bracket opening _ closing ih =>
    obtain ⟨bound, left⟩ := ih (here.passes opening)
    refine ⟨?_, left.passes closing⟩
    rw [Reading.Bounded, Expr.heightBy_withSpan]
    exact Nat.le_succ_of_le bound
  | rowEnd last | entriesEnd last => exact ⟨Nat.zero_le _, here.passes last⟩
  | rowLast _ last ih =>
    obtain ⟨bound, left⟩ := ih here
    exact ⟨Nat.max_le.2 ⟨bound, Nat.zero_le _⟩, left.passes last⟩
  | rowMore _ comma _ ih ih' =>
    obtain ⟨bound, left⟩ := ih here
    obtain ⟨others, left⟩ := ih' (left.passes comma)
    exact ⟨Nat.max_le.2 ⟨bound, others⟩, left⟩
  | entriesLast _ colon _ last ih ih' =>
    obtain ⟨first, left⟩ := ih here
    obtain ⟨second, left⟩ := ih' (left.passes colon)
    exact ⟨Nat.max_le.2 ⟨Nat.max_le.2 ⟨first, second⟩, Nat.zero_le _⟩, left.passes last⟩
  | entriesMore _ colon _ comma _ ih ih' ih'' =>
    obtain ⟨first, left⟩ := ih here
    obtain ⟨second, left⟩ := ih' (left.passes colon)
    obtain ⟨others, left⟩ := ih'' (left.passes comma)
    exact ⟨Nat.max_le.2 ⟨Nat.max_le.2 ⟨first, second⟩, others⟩, left⟩
  | programEnd => exact ⟨Nat.zero_le _, here⟩
  | programSkip semicolon _ ih => exact ih (here.passes semicolon)
  | programMore _ semicolon _ ih ih' =>
    obtain ⟨bound, left⟩ := ih here
    obtain ⟨others, left⟩ := ih' (left.passes semicolon)
    exact ⟨Nat.max_le.2 ⟨bound, others⟩, left⟩

end Parser

end ExprLang
