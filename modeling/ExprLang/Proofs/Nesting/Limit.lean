import ExprLang.Proofs.ParallelReading

set_option autoImplicit false

/-!
Two parsers before the same items of one source, of which the first has at least as much room for
nesting. They read the same, up to the point where the second one has to give up.
-/

namespace ExprLang.Parser

variable {α : Type} {m n : Nat} {p q : Parser}

/-- The same items of the same source are left, and `p` may nest at least as deep as `q`. -/
structure Roomier (p q : Parser) : Prop where
  source : p.source = q.source
  rest : p.rest = q.rest
  eof : p.eof = q.eof
  room : p.limit = none ∨ p.limit = q.limit ∧ p.depth ≤ q.depth

theorem Roomier.near (roomier : p.Roomier q) : p.Near (.inPlace q.source q.source) q where
  left := roomier.source
  right := rfl
  rest := by
    have refl (item : Item) : Item.Near (.inPlace q.source q.source) item item := by
      cases item with
      | ok => exact .ok ⟨rfl, rfl, rfl⟩
      | error => exact .error rfl rfl
    rw [roomier.rest]
    exact List.forall₂_same.2 fun item _ => refl item
  eofKind := by rw [roomier.eof]
  eofSpan := by rw [roomier.eof]
  room := roomier.room

theorem Near.roomier {source : String} (near : p.Near (.inPlace source source) q) :
    p.Roomier q where
  source := near.left.trans near.right.symm
  rest := by
    have same (a b : Item) (h : Item.Near (.inPlace source source) a b) : a = b := by
      cases h with
      | ok same => exact congrArg Except.ok (congr (congrArg Token.mk same.kind) same.span).symm
      | error cause span =>
        exact congrArg Except.error (congr (congrArg Located.mk cause) span).symm
    exact List.forall₂_eq_eq_eq ▸ near.rest.imp same
  eof := (congr (congrArg Token.mk near.eofKind) near.eofSpan).symm
  room := near.room

/-- Two attempts at one source give the same, unless the second one finds the nesting too deep. -/
abbrev ReadsSame (source : String) (a : Attempt (Parsed m α)) (b : Attempt (Parsed n α)) : Prop :=
  ReadsNear (.inPlace source source) Eq a b

theorem expression_filters (roomier : p.Roomier q) :
    ReadsSame q.source p.expression q.expression := by
  refine (expression_parallel roomier.near).mono fun d e same => ?_
  rwa [Comparison.inPlace, Expr.respan_id, Expr.respan_id, eq_comm] at same

theorem operand_filters (roomier : p.Roomier q) : ReadsSame q.source p.operand q.operand := by
  refine (operand_parallel roomier.near).mono fun d e same => ?_
  rwa [Comparison.inPlace, Expr.respan_id, Expr.respan_id, eq_comm] at same

theorem program_filters (roomier : p.Roomier q) : ReadsSame q.source p.program q.program := by
  refine (program_parallel roomier.near).mono fun r s same => ?_
  rwa [Comparison.inPlace, Program.respan, Program.respan, Expr.respanAll_id, Expr.respanAll_id,
    eq_comm] at same

end ExprLang.Parser
