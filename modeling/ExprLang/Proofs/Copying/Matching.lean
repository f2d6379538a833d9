import ExprLang.Proofs.Copying.Positions
import ExprLang.Proofs.ParallelChecks

set_option autoImplicit false

/-!
Two checkers, of which the right one makes no copies. They go through a program in step: what the
left one has more in its scopes are copies, and a copy never changes what a name means. At the root
there is nothing to copy, so there the scopes are the same.
-/

namespace ExprLang

open CheckM Scopes

namespace Scopes

variable {α : Type}

theorem FramesInStep.refl (fs : List (Frame α)) : FramesInStep Eq fs fs := by
  induction fs with
  | nil => exact .nil
  | cons f fs ih =>
    refine .cons ?_ ih
    intro name
    cases f.get? name with
    | none => exact .neither
    | some entry => exact .both rfl rfl

/-- With the same payloads, a name means the same entry on both sides. -/
theorem FramesInStep.entryIn_eq {fs gs : List (Frame α)} (h : FramesInStep Eq fs gs)
    (name : String) : Scopes.entryIn name gs = Scopes.entryIn name fs := by
  rcases (h.entryIn name).cases with ⟨a, b, left, right, binding, payload⟩ | ⟨left, right⟩ |
    ⟨a, -, -, outside⟩
  · obtain ⟨held, kind⟩ := a
    obtain ⟨held', kind'⟩ := b
    obtain rfl : kind' = kind := binding
    obtain rfl : held = held' := payload
    rw [left, right]
  · rw [left, right]
  · cases outside

end Scopes

namespace Checker

/-- The same checker, but one that makes no copies. -/
def withoutCopies (c : Checker) : Checker :=
  { c with copyAssigned := false }

/-- Two checkers that do not differ but in copies, of which the right one makes none. -/
structure Matches (c d : Checker) : Prop where
  scopes : InStep Eq c.scopes d.scopes
  root : c.scopes.outer = [] → d.scopes = c.scopes
  errors : d.errors = c.errors
  exits : d.exits = c.exits
  depth : d.depth = c.depth
  plain : d.copyAssigned = false

namespace Matches

variable {c d : Checker}

theorem refl (c : Checker) : c.Matches c.withoutCopies :=
  ⟨.refl _, fun _ => rfl, rfl, rfl, rfl, rfl⟩

theorem eq_of_root (h : c.Matches d) (root : c.scopes.outer = []) : d = c.withoutCopies := by
  obtain ⟨scopes, errors, exits, depth, copyAssigned⟩ := d
  rw [withoutCopies, ← h.root root, ← h.errors, ← h.exits, ← h.depth, ← h.plain]

/-- The scopes are replaced on both sides. -/
theorem rescoped (h : c.Matches d) {s t : Scopes Ty} (scopes : InStep Eq s t)
    (root : s.outer = [] → t = s) : Matches { c with scopes := s } { d with scopes := t } :=
  { h with scopes, root }

theorem insert (h : c.Matches d) (name : String) (entry : Entry Ty) :
    Matches { c with scopes := c.scopes.insert name entry }
      { d with scopes := d.scopes.insert name entry } := by
  apply h.rescoped
  · exact h.scopes.insert name rfl rfl
  · intro root
    rw [h.root root]

theorem erased (h : c.Matches d) (name : String) : (c.erased name).Matches (d.erased name) := by
  apply h.rescoped
  · exact h.scopes.erase name
  · intro root
    rw [h.root root]

theorem entered (h : c.Matches d) : c.entered.Matches d.entered := by
  apply h.rescoped
  · exact h.scopes.enter
  · rintro ⟨⟩

/-- A name is bound on both sides, to the same entry, or on neither. -/
theorem find? (h : c.Matches d) (name : String) :
    (c.scopes.find? name = none ∧ d.scopes.find? name = none) ∨
      ∃ entry i j, c.scopes.find? name = some (entry, i) ∧
        d.scopes.find? name = some (entry, j) := by
  have same : (d.scopes.find? name).map Prod.fst = (c.scopes.find? name).map Prod.fst :=
    FramesInStep.entryIn_eq h.scopes name
  cases left : c.scopes.find? name with
  | none =>
    rw [left] at same
    exact .inl ⟨rfl, Option.map_eq_none_iff.1 same⟩
  | some found =>
    obtain ⟨entry, i⟩ := found
    rw [left] at same
    obtain ⟨found, right, fst⟩ := Option.map_eq_some_iff.1 same
    obtain ⟨_, j⟩ := found
    obtain rfl : _ = entry := fst
    exact .inr ⟨_, i, j, rfl, right⟩

/-- An entry that is copied on the left was found further out, so not at the root. -/
theorem copying (h : c.Matches d) {name : String} {entry : Entry Ty} {i : Nat}
    (found : c.scopes.find? name = some (entry, i)) (j : Nat) :
    (c.copying name entry i).Matches (d.copying name entry j) := by
  have right : d.copying name entry j = d := by
    simp [Checker.copying, h.plain]
  rw [right]
  unfold Checker.copying
  split
  next copies =>
    obtain ⟨-, outside⟩ := outer_of_find? found copies.2
    refine { h with scopes := h.scopes.copied (.insert found copies.2), root := ?_ }
    intro root
    have nowhere : c.scopes.outer = [] := root
    rw [nowhere] at outside
    cases outside
  next => exact h

end Matches

end Checker

namespace CheckM

theorem follows_matches : Follows Checker.Matches Eq where
  exits h := h.exits
  depth h := h.depth
  consumed h _ := { h with exits := rfl }
  moved h _ := { h with depth := rfl }
  noted h cause s t place := by
    refine { h with errors := ?_ }
    simp only [Checker.noted, h.errors, place]

/-- Of a check, that copies make no difference to it. -/
abbrev Unmoved {α : Type} (x : CheckM α) : Prop :=
  Parallel Checker.Matches x x

theorem unmoved_lookup (ident : Ident) : Unmoved (lookup ident) := by
  intro c d h
  rw [run_lookup, run_lookup]
  rcases h.find? ident.name with ⟨left, right⟩ | ⟨entry, i, j, left, right⟩
  · rw [left, right]
    exact ⟨rfl, follows_matches.noted h _ rfl⟩
  · rw [left, right]
    exact ⟨rfl, h⟩

theorem unmoved_assign (target : Ident) (actual : Ty) (site : Unit → String) (span : Span) :
    Unmoved (assign target actual site span) := by
  intro c d h
  rcases h.find? target.name with ⟨left, right⟩ | ⟨entry, i, j, left, right⟩
  · rw [run_assign_unbound left, run_assign_unbound right]
    exact ⟨rfl, follows_matches.noted h _ rfl⟩
  · rw [run_assign_bound left, run_assign_bound right]
    refine ⟨rfl, Checker.Matches.copying ?_ ?_ j⟩
    · exact follows_matches.notedIf (follows_matches.notedIf h _ _ rfl) _ _ rfl
    · rwa [Checker.scopes_notedIf, Checker.scopes_notedIf]

end CheckM

/-! ### Blocks and loops -/

theorem Expr.unmoved_checkStatements {statements : List Expr}
    (h : ∀ s ∈ statements, Unmoved s.check) (exit? : Option (Control Ty)) :
    Unmoved (Expr.checkStatements exit? statements) := by
  induction statements generalizing exit? with
  | nil => exact parallel_pure exit?
  | cons statement rest ih =>
    obtain ⟨first, others⟩ := List.forall_mem_cons.1 h
    rw [Expr.checkStatements]
    apply first.bind
    intro result
    split
    · apply (parallel_updateUnreachable follows_matches _).bind
      intro _
      exact ih others (some result)
    · exact ih others exit?

/-- What has been copied in a frame is gone when the frame is left. -/
theorem CheckM.unmoved_inScope {α : Type} {x : CheckM α} (h : Unmoved x)
    (restores : ∀ c, ((inScope x).run c).2.scopes = c.scopes) : Unmoved (inScope x) := by
  intro c d related
  have left : (x.run c.entered).2.left.scopes = c.scopes := restores c
  have right : (x.run d.entered).2.left.scopes = d.scopes := restores d
  obtain ⟨same, after⟩ := h _ _ related.entered
  refine ⟨same, { after with scopes := ?_, root := ?_ }⟩
  · rw [run_inScope, run_inScope, left, right]
    exact related.scopes
  · rw [run_inScope, run_inScope, left, right]
    exact related.root

theorem Block.unmoved_check {body : Block} (h : ∀ s ∈ body.statements, Unmoved s.check) :
    Unmoved body.check := by
  have restores := Block.scopes_check fun s (_ : s ∈ body.statements) => s.anyhow_check
  rw [Block.check_eq] at *
  apply unmoved_inScope _ restores
  apply (Expr.unmoved_checkStatements h none).bind
  intro exit?
  split
  · exact (parallel_updateUnreachable follows_matches _).bind fun _ => parallel_pure _
  · exact parallel_pure _

theorem Declaration.unmoved_check {d : Declaration} (h : Unmoved d.value.check) :
    Unmoved d.check := by
  obtain ⟨binding, name, type, value, span⟩ := d
  rw [Declaration.check]
  apply (parallel_asValue follows_matches h rfl).bind
  intro actual
  apply parallel_reportIf follows_matches _ _ rfl
  intro c d related
  exact ⟨rfl, related.insert name.name ⟨type.type, binding⟩⟩

/-- After the variables of a loop, with what has been set aside for them. -/
structure Checker.MatchesAside (earlier names : List String)
    (left right : List (String × Entry Ty) × Checker) : Prop where
  checkers : left.2.Matches right.2
  aside : AsideInStep Eq left.2.scopes.outer earlier names left.1 right.1
  root : left.2.scopes.outer = [] → right.1 = left.1

theorem Declaration.matches_checkVariables {vars : List Declaration}
    (h : ∀ d ∈ vars, Unmoved d.value.check) (earlier : List String) {c d : Checker}
    (related : c.Matches d) :
    Checker.MatchesAside earlier (vars.map (·.name.name))
      ((Declaration.checkVariables earlier vars).run c)
      ((Declaration.checkVariables earlier vars).run d) := by
  induction vars generalizing earlier c d with
  | nil => exact ⟨related, .nil, fun _ => rfl⟩
  | cons v rest ih =>
    obtain ⟨first, others⟩ := List.forall_mem_cons.1 h
    have declared := Declaration.unmoved_check first _ _ (related.erased v.name.name)
    have later := ih others (v.name.name :: earlier) declared.2
    have outer : ((Declaration.checkVariables (v.name.name :: earlier) rest).run
        (v.check.run (c.erased v.name.name)).2).2.scopes.outer = c.scopes.outer :=
      (Declaration.anyhow_checkVariables _ rest _).outer.trans (v.anyhow_check _).outer
    rw [Declaration.run_checkVariables, Declaration.run_checkVariables]
    refine ⟨later.checkers, ?_, ?_⟩
    · apply AsideInStep.cons _ later.aside
      rw [outer]
      exact related.scopes.slots v.name.name
    · intro root
      have same := related.root (outer.symm.trans root)
      show setAsideFirst _ _ _ _ = setAsideFirst _ _ _ _
      rw [later.root root, same]

theorem Expr.unmoved_loop {vars : List Declaration} {body : Block}
    (initial : ∀ d ∈ vars, Unmoved d.value.check)
    (inside : ∀ s ∈ body.statements, Unmoved s.check) (span : Span) :
    Unmoved (Expr.loop vars body span).check := by
  rw [Expr.check_loop]
  refine parallel_nested follows_matches ?_ rfl
  intro c d related
  have header := Declaration.matches_checkVariables initial [] related
  have opened := follows_matches.opened header.checkers
  obtain ⟨-, after⟩ := Block.unmoved_check inside _ _ opened
  have closed := follows_matches.closed after
  have scopes : (body.check.run
      ((Declaration.checkVariables [] vars).run c).2.opened).2.closed.scopes =
        ((Declaration.checkVariables [] vars).run c).2.scopes :=
    Block.scopes_check (fun s _ => s.anyhow_check) _
  refine ⟨?_, closed.rescoped ?_ ?_⟩
  · have type := follows_matches.exitType after
    show Control.normal _ = Control.normal _
    rw [type]
  · apply closed.scopes.restore
    rw [scopes]
    exact header.aside
  · intro root
    rw [outer_restore] at root
    rw [closed.root root]
    rw [scopes] at root
    rw [header.root root]

/-! ### Expressions -/

theorem Expr.unmoved_checkItems {items : List Expr} (h : ∀ e ∈ items, Unmoved e.check)
    (element : Ty) : Unmoved (Expr.checkItems element items) := by
  induction items with
  | nil => exact parallel_pure ()
  | cons item rest ih =>
    obtain ⟨first, others⟩ := List.forall_mem_cons.1 h
    rw [Expr.checkItems]
    apply (parallel_asValue follows_matches first rfl).bind
    intro actual
    exact parallel_reportIf follows_matches _ _ rfl (ih others)

theorem Expr.unmoved_checkEntries {entries : List (Expr × Expr)}
    (h : ∀ e ∈ entries, Unmoved e.1.check ∧ Unmoved e.2.check) (key value : Ty) :
    Unmoved (Expr.checkEntries key value entries) := by
  induction entries with
  | nil => exact parallel_pure ()
  | cons entry rest ih =>
    obtain ⟨⟨first, second⟩, others⟩ := List.forall_mem_cons.1 h
    obtain ⟨k, v⟩ := entry
    rw [Expr.checkEntries]
    apply (parallel_asValue follows_matches first rfl).bind
    intro actual
    apply parallel_reportIf follows_matches _ _ rfl
    apply (parallel_asValue follows_matches second rfl).bind
    intro actual
    exact parallel_reportIf follows_matches _ _ rfl (ih others)

theorem Expr.unmoved_checkArguments {arguments : List Expr}
    (h : ∀ e ∈ arguments, Unmoved e.check) : Unmoved (Expr.checkArguments arguments) := by
  induction arguments with
  | nil => exact parallel_pure []
  | cons argument rest ih =>
    obtain ⟨first, others⟩ := List.forall_mem_cons.1 h
    rw [Expr.checkArguments]
    apply (parallel_asValue follows_matches first rfl).bind
    intro type
    exact (ih others).bind fun _ => parallel_pure _

theorem Conditional.unmoved_check (branches : Conditional) (span : Span)
    (h : ∀ e ∈ branches.children, Unmoved e.check) : Unmoved (branches.check span) := by
  match branches with
  | .only condition body =>
    obtain ⟨first, inside⟩ := List.forall_mem_cons.1 h
    rw [Conditional.check]
    apply (parallel_asValue follows_matches first rfl).bind
    intro type
    apply parallel_reportIf follows_matches _ _ rfl
    exact (Block.unmoved_check inside).bind fun _ => parallel_pure _
  | .withElse condition body otherwise =>
    obtain ⟨first, inside⟩ := List.forall_mem_cons.1 h
    obtain ⟨yes, no⟩ := List.forall_mem_append.1 inside
    rw [Conditional.check]
    apply (parallel_asValue follows_matches first rfl).bind
    intro type
    apply parallel_reportIf follows_matches _ _ rfl
    apply (Block.unmoved_check yes).bind
    intro result
    exact (Block.unmoved_check no).bind fun other =>
      parallel_join follows_matches result other _ rfl
  | .withElseIf condition body next nextSpan =>
    obtain ⟨first, inside⟩ := List.forall_mem_cons.1 h
    obtain ⟨yes, no⟩ := List.forall_mem_append.1 inside
    rw [Conditional.check]
    apply (parallel_asValue follows_matches first rfl).bind
    intro type
    apply parallel_reportIf follows_matches _ _ rfl
    apply (Block.unmoved_check yes).bind
    intro result
    exact (next.unmoved_check nextSpan no).bind fun other =>
      parallel_join follows_matches result other _ rfl

theorem Expr.unmoved_check (e : Expr) : Unmoved e.check := by
  induction e using Expr.childInduction with
  | step e inside =>
  cases e with
  | literal =>
    rw [Expr.check]
    exact parallel_nested follows_matches (parallel_pure _) rfl
  | list items =>
    cases items with
    | nil =>
      rw [Expr.check]
      exact parallel_nested follows_matches (parallel_pure _) rfl
    | cons first rest =>
      obtain ⟨one, others⟩ := List.forall_mem_cons.1 inside
      rw [Expr.check]
      refine parallel_nested follows_matches ?_ rfl
      apply (parallel_asValue follows_matches one rfl).bind
      intro element
      exact (Expr.unmoved_checkItems others element).bind fun _ => parallel_pure _
  | map entries =>
    have parts : ∀ entry ∈ entries, Unmoved entry.1.check ∧ Unmoved entry.2.check := by
      intro entry among
      constructor
      · exact inside _ (List.mem_flatMap.2 ⟨entry, among, by simp⟩)
      · exact inside _ (List.mem_flatMap.2 ⟨entry, among, by simp⟩)
    cases entries with
    | nil =>
      rw [Expr.check]
      exact parallel_nested follows_matches (parallel_pure _) rfl
    | cons entry rest =>
      obtain ⟨⟨first, second⟩, others⟩ := List.forall_mem_cons.1 parts
      obtain ⟨key, value⟩ := entry
      rw [Expr.check]
      refine parallel_nested follows_matches ?_ rfl
      apply (parallel_asValue follows_matches first rfl).bind
      intro keyType
      apply (parallel_asValue follows_matches second rfl).bind
      intro valueType
      exact (Expr.unmoved_checkEntries others _ _).bind fun _ => parallel_pure _
  | name ident =>
    rw [Expr.check]
    exact parallel_nested follows_matches
      ((unmoved_lookup ident).bind fun _ => parallel_pure _) rfl
  | unary op operand =>
    rw [Expr.check]
    refine parallel_nested follows_matches ?_ rfl
    apply (parallel_asValue follows_matches (inside operand (by simp [children])) rfl).bind
    intro type
    exact (parallel_settle follows_matches _ rfl).bind fun _ => parallel_pure _
  | binary op lhs rhs =>
    rw [Expr.check]
    refine parallel_nested follows_matches ?_ rfl
    apply (parallel_asValue follows_matches (inside lhs (by simp [children])) rfl).bind
    intro left
    apply (parallel_asValue follows_matches (inside rhs (by simp [children])) rfl).bind
    intro right
    exact (parallel_settle follows_matches _ rfl).bind fun _ => parallel_pure _
  | declare d =>
    rw [Expr.check]
    refine parallel_nested follows_matches ?_ rfl
    exact (Declaration.unmoved_check (inside d.value (by simp [children]))).bind fun _ =>
      parallel_pure _
  | assign target value =>
    rw [Expr.check]
    refine parallel_nested follows_matches ?_ rfl
    apply (parallel_asValue follows_matches (inside value (by simp [children])) rfl).bind
    intro actual
    exact (unmoved_assign target actual _ _).bind fun _ => parallel_pure _
  | block body =>
    rw [Expr.check]
    exact parallel_nested follows_matches (Block.unmoved_check inside) rfl
  | cond branches =>
    rw [Expr.check]
    exact parallel_nested follows_matches (branches.unmoved_check _ inside) rfl
  | loop vars body =>
    obtain ⟨values, statements⟩ := List.forall_mem_append.1 inside
    apply Expr.unmoved_loop _ statements
    intro d among
    exact values d.value (List.mem_map_of_mem among)
  | exit kind value =>
    cases value with
    | none =>
      rw [Expr.check]
      exact parallel_nested follows_matches
        ((parallel_recordExit follows_matches _ rfl).bind fun _ => parallel_pure _) rfl
    | some value =>
      rw [Expr.check]
      refine parallel_nested follows_matches ?_ rfl
      apply (parallel_asValue follows_matches (inside value (by simp [children])) rfl).bind
      intro type
      exact (parallel_recordExit follows_matches _ rfl).bind fun _ => parallel_pure _
  | call callee arguments =>
    rw [Expr.check]
    refine parallel_nested follows_matches ?_ rfl
    apply (Expr.unmoved_checkArguments inside).bind
    intro types
    split
    · exact (parallel_settle follows_matches _ rfl).bind fun _ => parallel_pure _
    · exact (parallel_report follows_matches _ rfl).bind fun _ => parallel_pure _

theorem Expr.unmoved_asValue (e : Expr) : Unmoved (asValue e.span e.check) :=
  parallel_asValue follows_matches e.unmoved_check rfl

theorem Program.unmoved_check (p : Program) : Unmoved (Program.check p) := by
  match p with
  | [] => exact parallel_pure _
  | statement :: rest =>
    rw [Program.check]
    apply statement.unmoved_check.bind
    intro result
    exact (Program.unmoved_check rest).bind fun _ => parallel_pure _

/-! ### Places -/

section Places

variable {c d : Checker} {way : Checker → Checker} {x : Expr}

theorem Block.Leads.matched {body : Block} (leads : body.Leads way x) (related : c.Matches d) :
    (way c).Matches (way d) := by
  cases leads with
  | statement split =>
    exact (Expr.unmoved_checkStatements (fun s _ => s.unmoved_check) none _ _ related.entered).2

theorem Conditional.matches_afterCondition (branches : Conditional) (related : c.Matches d) :
    (branches.afterCondition c).Matches (branches.afterCondition d) := by
  obtain ⟨same, after⟩ := branches.condition.unmoved_asValue c d related
  simp only [Conditional.afterCondition, same]
  exact follows_matches.notedIf after _ _ rfl

theorem Block.matches_check (body : Block) (related : c.Matches d) :
    (body.check.run c).2.Matches (body.check.run d).2 :=
  (Block.unmoved_check (fun s _ => s.unmoved_check) c d related).2

theorem Conditional.Leads.matched {branches : Conditional} (leads : branches.Leads way x)
    (related : c.Matches d) : (way c).Matches (way d) := by
  induction leads generalizing c d with
  | condition => exact follows_matches.opened related
  | body inside => exact inside.matched (matches_afterCondition _ related)
  | @otherwise condition body other way x inside =>
    exact inside.matched (body.matches_check (matches_afterCondition _ related))
  | @next condition body next span way x inside ih =>
    exact ih (body.matches_check (matches_afterCondition _ related))

theorem Expr.Leads.matched {e : Expr} (leads : e.Leads way x) (related : c.Matches d) :
    (way c).Matches (way d) := by
  have deeper := follows_matches.deeper related
  have each : ∀ items : List Expr, ∀ e ∈ items, Unmoved e.check := fun _ e _ => e.unmoved_check
  have both : ∀ entries : List (Expr × Expr), ∀ e ∈ entries,
      Unmoved e.1.check ∧ Unmoved e.2.check :=
    fun _ e _ => ⟨e.1.unmoved_check, e.2.unmoved_check⟩
  have initial : ∀ vars : List Declaration, ∀ d ∈ vars, Unmoved d.value.check :=
    fun _ d _ => d.value.unmoved_check
  cases leads with
  | operand first => exact follows_matches.opened deeper
  | @rhs op lhs => exact follows_matches.opened (lhs.unmoved_asValue _ _ deeper).2
  | @item first x before =>
    obtain ⟨same, after⟩ := first.unmoved_asValue _ _ deeper
    simp only [same]
    exact follows_matches.opened (Expr.unmoved_checkItems (each before) _ _ _ after).2
  | @firstValue key => exact follows_matches.opened (key.unmoved_asValue _ _ deeper).2
  | @key k v x value before =>
    obtain ⟨sameKey, after⟩ := k.unmoved_asValue _ _ deeper
    obtain ⟨sameValue, after⟩ := v.unmoved_asValue _ _ after
    simp only [sameKey, sameValue]
    exact follows_matches.opened (Expr.unmoved_checkEntries (both before) _ _ _ _ after).2
  | @value k v key x before =>
    obtain ⟨sameKey, after⟩ := k.unmoved_asValue _ _ deeper
    obtain ⟨sameValue, after⟩ := v.unmoved_asValue _ _ after
    have here := (Expr.unmoved_checkEntries (both before) ((asValue k.span k.check).run c.deeper).1
      ((asValue v.span v.check).run ((asValue k.span k.check).run c.deeper).2).1 _ _ after).2
    obtain ⟨same, after⟩ := key.unmoved_asValue _ _ here
    simp only [sameKey, sameValue, same]
    exact follows_matches.opened (follows_matches.notedIf after _ _ rfl)
  | @argument callee before =>
    exact follows_matches.opened (Expr.unmoved_checkArguments (each before) _ _ deeper).2
  | block inside => exact inside.matched deeper
  | cond inside => exact inside.matched deeper
  | @initial before after d =>
    have header := Declaration.matches_checkVariables (initial before) [] deeper
    exact follows_matches.opened (header.checkers.erased d.name.name)
  | @round vars body span way x inside =>
    have header := Declaration.matches_checkVariables (initial vars) [] deeper
    exact inside.matched (follows_matches.opened header.checkers)

theorem Program.Leads.matched {p : Program} (leads : p.Leads way x) (related : c.Matches d) :
    (way c).Matches (way d) := by
  induction leads with
  | @statement before after x split => exact (Program.unmoved_check before c d related).2
  | inside outside inside ih => exact inside.matched ih

end Places

end ExprLang
