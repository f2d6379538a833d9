import ExprLang.Proofs.NestingLimit
import ExprLang.Proofs.ParserRules

set_option autoImplicit false

/-!
The parser keeps account of its depth. What is read leaves it as deep in as it was; trouble may
leave it deeper in, since a row of operands that fails does not come back out, but never further
out. So a parser that goes on after trouble has less and less room for nesting.
-/

namespace ExprLang

namespace Parser

variable {α : Type} {n : Nat}

/-- The parser `q` is at least as deep in as `p`, under the same limit. -/
structure Sinks (p q : Parser) : Prop where
  depth : p.depth ≤ q.depth
  limit : q.limit = p.limit

theorem rules_advances_sinks : Rules Advances fun p failure => p.Sinks failure.parser where
  refl := .refl
  trans := .trans
  after first second :=
    ⟨Nat.le_trans (Nat.le_of_eq first.depth.symm) second.depth, second.limit.trans first.limit⟩
  stop _ := ⟨Nat.le_refl _, rfl⟩
  take := .take
  drop _ _ := ⟨Nat.le_refl _, rfl⟩
  inside := .inside
  caught inner := ⟨Nat.sub_le_sub_right inner.depth 1, inner.limit⟩
  missed inner := ⟨Nat.le_of_succ_le inner.depth, inner.limit⟩

/-- An attempt from `p` that gives a result has used up tokens, at least one, and leaves the depth
as it was; one that fails leaves the depth no smaller. -/
structure Accounts (p : Parser) (a : Attempt (Parsed n α)) : Prop where
  result : ∀ r, a = .ok r → r.parser.depth = p.depth ∧
    ∃ tokens : List Token, tokens ≠ [] ∧ p.rest = tokens.map .ok ++ r.parser.rest
  trouble : ∀ failure, a = .error failure → p.depth ≤ failure.parser.depth

/-- A result always comes with fewer items left than before, so what it has used up is not
nothing. -/
theorem Obeys.accounts {p : Parser} {a : Attempt (Parsed p.size α)}
    (h : Obeys Advances (fun p failure => p.Sinks failure.parser) p a) : p.Accounts a := by
  constructor
  · rintro r rfl
    obtain ⟨tokens, here⟩ := h.used
    refine ⟨h.depth, tokens, ?_, here⟩
    rintro rfl
    have same : p.size = r.parser.size := congrArg List.length here
    exact absurd r.shorter (Nat.not_lt_of_le (Nat.le_of_eq same))
  · rintro failure rfl
    exact h.depth

theorem sinks_left (p : Parser) : p.Sinks (left p.expression) := by
  have obeys := expression_obeys rules_advances_sinks p
  cases read : p.expression with
  | ok r =>
    rw [read] at obeys
    exact ⟨Nat.le_of_eq obeys.depth.symm, obeys.limit⟩
  | error failure =>
    rw [read] at obeys
    exact obeys

theorem sinks_afterCalls (p : Parser) {j k : Nat} (le : j ≤ k) :
    (p.afterCalls j).Sinks (p.afterCalls k) := by
  induction le with
  | refl => exact ⟨Nat.le_refl _, rfl⟩
  | @step k _ ih =>
    have next := sinks_left (p.afterCalls k)
    exact ⟨Nat.le_trans ih.depth next.depth, next.limit.trans ih.limit⟩

end Parser

open ExprLang.Parser in
/-- Whatever is read, from whatever state of the parser, the depth is accounted for. In reading one
expression after the other it never goes down while the limit stays; and at the depth after a later
call, the parser reads any input as it would at the depth after an earlier one, unless it gives up
for the nesting. -/
theorem depth_is_accounted_for (p : Parser) :
    (p.Accounts p.statement ∧ p.Accounts p.expression ∧ p.Accounts p.block ∧
      p.Accounts p.declaration ∧ p.Accounts p.conditional ∧ p.Accounts p.loop ∧
      p.Accounts p.typeExpr ∧ (∀ power, p.Accounts (p.operation power)) ∧
      (∀ closing, p.Accounts (p.expressions closing)) ∧ p.Accounts p.entries) ∧
    ∀ j k, j ≤ k →
      (p.afterCalls j).depth ≤ (p.afterCalls k).depth ∧
      (p.afterCalls k).limit = (p.afterCalls j).limit ∧
      ∀ q : Parser,
        let earlier := (q.atDepth (p.afterCalls j).depth).expression
        let later := (q.atDepth (p.afterCalls k).depth).expression
        gaveUp later = false →
          result earlier = result later ∧ (left earlier).rest = (left later).rest := by
  have rules := rules_advances_sinks
  refine ⟨⟨(statement_obeys rules p).accounts, (expression_obeys rules p).accounts,
    (block_obeys rules p).accounts, (declaration_obeys rules p).accounts,
    (conditional_obeys rules p).accounts, (loop_obeys rules p).accounts,
    (typeExpr_obeys rules p).accounts, fun power => (operation_obeys rules p power).accounts,
    fun closing => (expressions_obeys rules p closing).accounts,
    (entries_obeys rules p).accounts⟩, ?_⟩
  intro j k le
  obtain ⟨deeper, limit⟩ := sinks_afterCalls p le
  refine ⟨deeper, limit, ?_⟩
  intro q earlier later reads
  obtain ⟨same, after⟩ := ReadsSame.agree (expression_filters (roomier_atDepth q deeper)) reads
  exact ⟨same, after.rest⟩

section Leak

/-- Two calls fail on this text, the first one inside of a list inside of an argument; the third
call reads the number. -/
def leakyText : String :=
  "f([1, -]) 2"

open ExprLang.Parser in
theorem leakyText_depth_is_accounted_for :
    ((ofSource leakyText).afterCalls 1).depth = 4 ∧
    ((ofSource leakyText).afterCalls 2).depth = 5 ∧
    (∃ r, ((ofSource leakyText).afterCalls 2).expression = .ok r ∧ r.parser.depth = 5 ∧
      ∃ tokens : List Token, tokens ≠ [] ∧
        ((ofSource leakyText).afterCalls 2).rest = tokens.map .ok ++ r.parser.rest) ∧
    gaveUp ((ofSource "-2").atDepth 5).expression = false ∧
    result ((ofSource "-2").atDepth 4).expression =
      result ((ofSource "-2").atDepth 5).expression := by
  have first : ((ofSource leakyText).afterCalls 1).depth = 4 := by decide +kernel
  have second : ((ofSource leakyText).afterCalls 2).depth = 5 := by decide +kernel
  have reads : gaveUp ((ofSource "-2").atDepth 5).expression = false := by decide +kernel
  have third : ((ofSource leakyText).afterCalls 2).expression.toBool = true := by decide +kernel
  obtain ⟨⟨-, expression, -⟩, -⟩ := depth_is_accounted_for ((ofSource leakyText).afterCalls 2)
  obtain ⟨-, -, stricter⟩ := (depth_is_accounted_for (ofSource leakyText)).2 1 2 (by decide)
  rw [first, second] at stricter
  refine ⟨first, second, ?_, reads, (stricter (ofSource "-2") reads).1⟩
  cases read : ((ofSource leakyText).afterCalls 2).expression with
  | error failure =>
    rw [read] at third
    cases third
  | ok r =>
    obtain ⟨depth, used⟩ := expression.result r read
    exact ⟨r, rfl, depth.trans second, used⟩

end Leak

end ExprLang
