import ExprLang.Proofs.CheckerParts

set_option autoImplicit false

/-!
The places in a program to which the checker comes, and what it does on its way there: for each of
them a function from the state at the start to the state in which it is come to. The functions do
not ask how deep a place is nested, so they go on where a check would have ended.
-/

namespace ExprLang

open CheckM

/-- In a block, a statement is come to after those before it. -/
inductive Block.Leads (body : Block) : (Checker → Checker) → Expr → Prop where
  | statement {before after : List Expr} {x : Expr}
      (split : body.statements = before ++ x :: after) :
      Leads body (fun c => ((Expr.checkStatements none before).run c.entered).2) x

/-- After the condition of a conditional, with the complaint about its type. -/
def Conditional.afterCondition (branches : Conditional) (c : Checker) : Checker :=
  let condition := branches.condition
  let used := (asValue condition.span condition.check).run c
  used.2.notedIf (used.1.name ≠ .bool) (.nonBoolCondition used.1) condition.span

/-- The links of a conditional are come to one after the other. -/
inductive Conditional.Leads : Conditional → (Checker → Checker) → Expr → Prop where
  | condition {branches : Conditional} : Leads branches Checker.opened branches.condition
  | body {branches : Conditional} {way : Checker → Checker} {x : Expr}
      (inside : branches.body.Leads way x) :
      Leads branches (fun c => way (branches.afterCondition c)) x
  | otherwise {condition : Expr} {body other : Block} {way : Checker → Checker} {x : Expr}
      (inside : other.Leads way x) :
      Leads (.withElse condition body other)
        (fun c => way (body.check.run
          ((Conditional.withElse condition body other).afterCondition c)).2) x
  | next {condition : Expr} {body : Block} {next : Conditional} {span : Span}
      {way : Checker → Checker} {x : Expr} (inside : next.Leads way x) :
      Leads (.withElseIf condition body next span)
        (fun c => way (body.check.run
          ((Conditional.withElseIf condition body next span).afterCondition c)).2) x

/-- What stands directly in an expression. The first operand is come to at once, the others after
those before them, with the complaints about these. -/
inductive Expr.Leads : Expr → (Checker → Checker) → Expr → Prop where
  | operand {e x : Expr} {rest : List Expr} (first : e.operands = x :: rest) :
      Leads e (fun c => c.deeper.opened) x
  | rhs {op : BinaryOp} {lhs rhs : Expr} {span : Span} :
      Leads (.binary op lhs rhs span)
        (fun c => ((asValue lhs.span lhs.check).run c.deeper).2.opened) rhs
  | item {first x : Expr} {before after : List Expr} {span : Span} :
      Leads (.list (first :: (before ++ x :: after)) span)
        (fun c =>
          let element := (asValue first.span first.check).run c.deeper
          ((Expr.checkItems element.1 before).run element.2).2.opened) x
  | firstValue {key x : Expr} {rest : List (Expr × Expr)} {span : Span} :
      Leads (.map ((key, x) :: rest) span)
        (fun c => ((asValue key.span key.check).run c.deeper).2.opened) x
  | key {k v x value : Expr} {before after : List (Expr × Expr)} {span : Span} :
      Leads (.map ((k, v) :: (before ++ (x, value) :: after)) span)
        (fun c =>
          let keyType := (asValue k.span k.check).run c.deeper
          let valueType := (asValue v.span v.check).run keyType.2
          ((Expr.checkEntries keyType.1 valueType.1 before).run valueType.2).2.opened) x
  | value {k v key x : Expr} {before after : List (Expr × Expr)} {span : Span} :
      Leads (.map ((k, v) :: (before ++ (key, x) :: after)) span)
        (fun c =>
          let keyType := (asValue k.span k.check).run c.deeper
          let valueType := (asValue v.span v.check).run keyType.2
          let here := ((Expr.checkEntries keyType.1 valueType.1 before).run valueType.2).2
          let actual := (asValue key.span key.check).run here
          (actual.2.notedIf (actual.1 ≠ keyType.1) (.mixedMap keyType.1 actual.1)
            key.span).opened) x
  | argument {callee : Ident} {before after : List Expr} {x : Expr} {span : Span} :
      Leads (.call callee (before ++ x :: after) span)
        (fun c => ((Expr.checkArguments before).run c.deeper).2.opened) x
  | block {body : Block} {span : Span} {way : Checker → Checker} {x : Expr}
      (inside : body.Leads way x) : Leads (.block body span) (fun c => way c.deeper) x
  | cond {branches : Conditional} {span : Span} {way : Checker → Checker} {x : Expr}
      (inside : branches.Leads way x) : Leads (.cond branches span) (fun c => way c.deeper) x
  | initial {before after : List Declaration} {d : Declaration} {body : Block} {span : Span} :
      Leads (.loop (before ++ d :: after) body span)
        (fun c => (((Declaration.checkVariables [] before).run c.deeper).2.erased
          d.name.name).opened) d.value
  | round {vars : List Declaration} {body : Block} {span : Span} {way : Checker → Checker}
      {x : Expr} (inside : body.Leads way x) :
      Leads (.loop vars body span)
        (fun c => way ((Declaration.checkVariables [] vars).run c.deeper).2.opened) x

/-- All expressions of a program, at whatever depth. -/
inductive Program.Leads (p : Program) : (Checker → Checker) → Expr → Prop where
  | statement {before after : List Expr} {x : Expr} (split : p = before ++ x :: after) :
      Leads p (fun c => ((Program.check before).run c).2) x
  | inside {e x : Expr} {way step : Checker → Checker} (outside : Leads p way e)
      (inside : e.Leads step x) : Leads p (fun c => step (way c)) x

/-! ### No place is left out -/

theorem Block.exists_leads {body : Block} {x : Expr} (inside : x ∈ body.statements) :
    ∃ way, body.Leads way x := by
  obtain ⟨before, after, split⟩ := List.append_of_mem inside
  exact ⟨_, .statement split⟩

theorem Conditional.exists_leads (branches : Conditional) {x : Expr}
    (inside : x ∈ branches.children) : ∃ way, branches.Leads way x := by
  match branches with
  | .only condition body =>
    rcases List.mem_cons.1 inside with rfl | later
    · exact ⟨_, .condition⟩
    · obtain ⟨way, leads⟩ := body.exists_leads later
      exact ⟨_, .body leads⟩
  | .withElse condition body other =>
    rcases List.mem_cons.1 inside with rfl | later
    · exact ⟨_, .condition⟩
    · rcases List.mem_append.1 later with yes | no
      · obtain ⟨way, leads⟩ := body.exists_leads yes
        exact ⟨_, .body leads⟩
      · obtain ⟨way, leads⟩ := other.exists_leads no
        exact ⟨_, .otherwise leads⟩
  | .withElseIf condition body next _ =>
    rcases List.mem_cons.1 inside with rfl | later
    · exact ⟨_, .condition⟩
    · rcases List.mem_append.1 later with yes | no
      · obtain ⟨way, leads⟩ := body.exists_leads yes
        exact ⟨_, .body leads⟩
      · obtain ⟨way, leads⟩ := next.exists_leads no
        exact ⟨_, .next leads⟩

theorem Expr.exists_leads {e x : Expr} (inside : x ∈ e.children) : ∃ way, e.Leads way x := by
  cases e with
  | literal | name => cases inside
  | list items =>
    cases items with
    | nil => cases inside
    | cons first rest =>
      rcases List.mem_cons.1 inside with rfl | later
      · exact ⟨_, .operand rfl⟩
      · obtain ⟨before, after, rfl⟩ := List.append_of_mem later
        exact ⟨_, .item⟩
  | map entries =>
    cases entries with
    | nil => cases inside
    | cons entry rest =>
      obtain ⟨key, value⟩ := entry
      rcases List.mem_cons.1 inside with rfl | later
      · exact ⟨_, .operand rfl⟩
      · rcases List.mem_cons.1 later with rfl | later
        · exact ⟨_, .firstValue⟩
        · obtain ⟨entry, among, here⟩ := List.mem_flatMap.1 later
          obtain ⟨before, after, rfl⟩ := List.append_of_mem among
          obtain ⟨k, v⟩ := entry
          simp only [List.mem_cons, List.not_mem_nil, or_false] at here
          rcases here with rfl | rfl
          · exact ⟨_, .key⟩
          · exact ⟨_, .value⟩
  | unary op operand =>
    obtain rfl := List.mem_singleton.1 inside
    exact ⟨_, .operand rfl⟩
  | binary op lhs rhs =>
    simp only [children, List.mem_cons, List.not_mem_nil, or_false] at inside
    rcases inside with rfl | rfl
    · exact ⟨_, .operand rfl⟩
    · exact ⟨_, .rhs⟩
  | declare d =>
    obtain rfl := List.mem_singleton.1 inside
    exact ⟨_, .operand rfl⟩
  | assign target value =>
    obtain rfl := List.mem_singleton.1 inside
    exact ⟨_, .operand rfl⟩
  | block body =>
    obtain ⟨way, leads⟩ := body.exists_leads inside
    exact ⟨_, .block leads⟩
  | cond branches =>
    obtain ⟨way, leads⟩ := branches.exists_leads inside
    exact ⟨_, .cond leads⟩
  | loop vars body =>
    rcases List.mem_append.1 inside with initial | again
    · obtain ⟨d, among, rfl⟩ := List.mem_map.1 initial
      obtain ⟨before, after, rfl⟩ := List.append_of_mem among
      exact ⟨_, .initial⟩
    · obtain ⟨way, leads⟩ := body.exists_leads again
      exact ⟨_, .round leads⟩
  | exit kind value =>
    cases value with
    | none => cases inside
    | some value =>
      obtain rfl := List.mem_singleton.1 inside
      exact ⟨_, .operand rfl⟩
  | call callee arguments =>
    obtain ⟨before, after, rfl⟩ := List.append_of_mem inside
    exact ⟨_, .argument⟩

/-- Once an expression is come to, so is everything in it. -/
theorem Program.Leads.everywhere {p : Program} {e : Expr} {way : Checker → Checker}
    (leads : p.Leads way e) : e.Everywhere fun x => ∃ way, p.Leads way x := by
  induction e using Expr.childInduction generalizing way with
  | step e ih =>
  refine .intro ⟨way, leads⟩ ?_
  intro x inside
  obtain ⟨step, here⟩ := Expr.exists_leads inside
  exact ih x inside (.inside leads here)

theorem Program.everywhere_leads (p : Program) :
    ∀ s ∈ p, s.Everywhere fun x => ∃ way, p.Leads way x := by
  intro s inside
  obtain ⟨before, after, split⟩ := List.append_of_mem inside
  exact (Program.Leads.statement split).everywhere

end ExprLang
