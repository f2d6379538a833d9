import ExprLang.Proofs.ParallelChecks
import ExprLang.Proofs.Places

set_option autoImplicit false

/-!
Checking does not look at places. A tree and the same tree with its places changed are checked in
the same way; only the places of the complaints differ. A complaint that quotes the program quotes
the written form of a tree, which has no places in it.
-/

namespace ExprLang

variable (f : Span → Span)

/-! ### The written form -/

theorem TypeExpr.source_respan (t : TypeExpr) : (t.respan f).source = t.source := by
  induction t with
  | none | int | dec | str | bool => rfl
  | list element _ ih => rw [respan, source, source, ih]
  | map key value _ ihKey ihValue => rw [respan, source, source, ihKey, ihValue]

mutual

theorem Expr.sourceAt_respan (depth : Nat) (e : Expr) :
    (e.respan f).sourceAt depth = e.sourceAt depth := by
  match e with
  | .literal .. | .exit _ none _ => rfl
  | .name .. => rfl
  | .list items _ => simp only [Expr.respan, Expr.sourceAt, Expr.sourceAll_respan depth items]
  | .map entries _ =>
    simp only [Expr.respan, Expr.sourceAt, Expr.sourceEntries_respan depth entries]
  | .unary _ operand _ => simp only [Expr.respan, Expr.sourceAt, operand.sourceAt_respan depth]
  | .binary _ lhs rhs _ =>
    simp only [Expr.respan, Expr.sourceAt, lhs.sourceAt_respan depth, rhs.sourceAt_respan depth]
  | .declare d _ => simp only [Expr.respan, Expr.sourceAt, d.sourceAt_respan depth]
  | .assign _ value _ =>
    simp only [Expr.respan, Ident.respan, Expr.sourceAt, value.sourceAt_respan depth]
  | .block body _ => simp only [Expr.respan, Expr.sourceAt, body.sourceAt_respan depth]
  | .cond branches _ => simp only [Expr.respan, Expr.sourceAt, branches.sourceAt_respan depth]
  | .loop vars body _ =>
    simp only [Expr.respan, Expr.sourceAt, Declaration.sourceAll_respan depth vars,
      body.sourceAt_respan depth]
  | .exit _ (some value) _ => simp only [Expr.respan, Expr.sourceAt, value.sourceAt_respan depth]
  | .call _ arguments _ =>
    simp only [Expr.respan, Ident.respan, Expr.sourceAt, Expr.sourceAll_respan depth arguments]

theorem Expr.sourceAll_respan (depth : Nat) (es : List Expr) :
    Expr.sourceAll depth (Expr.respanAll f es) = Expr.sourceAll depth es := by
  match es with
  | [] => rfl
  | [e] => exact e.sourceAt_respan depth
  | e :: e' :: es =>
    have rest := Expr.sourceAll_respan depth (e' :: es)
    simp only [Expr.respanAll, Expr.sourceAll] at rest ⊢
    rw [e.sourceAt_respan depth, rest]

theorem Expr.sourceEntries_respan (depth : Nat) (es : List (Expr × Expr)) :
    Expr.sourceEntries depth (Expr.respanEntries f es) = Expr.sourceEntries depth es := by
  match es with
  | [] => rfl
  | [(key, value)] =>
    simp only [Expr.respanEntries, Expr.sourceEntries, key.sourceAt_respan depth,
      value.sourceAt_respan depth]
  | (key, value) :: (key', value') :: es =>
    have rest := Expr.sourceEntries_respan depth ((key', value') :: es)
    simp only [Expr.respanEntries, Expr.sourceEntries] at rest ⊢
    rw [key.sourceAt_respan depth, value.sourceAt_respan depth, rest]

theorem Declaration.sourceAt_respan (depth : Nat) (d : Declaration) :
    (d.respan f).sourceAt depth = d.sourceAt depth := by
  match d with
  | .mk _ _ type value _ =>
    simp only [Declaration.respan, Ident.respan, Declaration.sourceAt, value.sourceAt_respan depth,
      type.source_respan]

theorem Declaration.sourceAll_respan (depth : Nat) (ds : List Declaration) :
    Declaration.sourceAll depth (Declaration.respanAll f ds) = Declaration.sourceAll depth ds := by
  match ds with
  | [] => rfl
  | [d] => exact d.sourceAt_respan depth
  | d :: d' :: ds =>
    have rest := Declaration.sourceAll_respan depth (d' :: ds)
    simp only [Declaration.respanAll, Declaration.sourceAll] at rest ⊢
    rw [d.sourceAt_respan depth, rest]

theorem Block.sourceAt_respan (depth : Nat) (b : Block) :
    (b.respan f).sourceAt depth = b.sourceAt depth := by
  match b with
  | .mk [] _ => rfl
  | .mk (e :: es) _ =>
    have lines := Expr.sourceLines_respan (depth + 1) (e :: es)
    simp only [Expr.respanAll, Block.respan, Block.sourceAt] at lines ⊢
    rw [lines]

theorem Expr.sourceLines_respan (depth : Nat) (es : List Expr) :
    Expr.sourceLines depth (Expr.respanAll f es) = Expr.sourceLines depth es := by
  match es with
  | [] => rfl
  | e :: es =>
    simp only [Expr.respanAll, Expr.sourceLines, e.sourceAt_respan depth,
      Expr.sourceLines_respan depth es]

theorem Conditional.sourceAt_respan (depth : Nat) (b : Conditional) :
    (b.respan f).sourceAt depth = b.sourceAt depth := by
  match b with
  | .only condition body =>
    simp only [Conditional.respan, Conditional.sourceAt, condition.sourceAt_respan depth,
      body.sourceAt_respan depth]
  | .withElse condition body otherwise =>
    simp only [Conditional.respan, Conditional.sourceAt, condition.sourceAt_respan depth,
      body.sourceAt_respan depth, otherwise.sourceAt_respan depth]
  | .withElseIf condition body next _ =>
    simp only [Conditional.respan, Conditional.sourceAt, condition.sourceAt_respan depth,
      body.sourceAt_respan depth, next.sourceAt_respan depth]

end

/-! ### Steps of the checker -/

namespace Checker

/-- Nothing differs but the places of the complaints. -/
structure Like (c d : Checker) : Prop where
  scopes : d.scopes = c.scopes
  causes : d.errors.map (·.cause) = c.errors.map (·.cause)
  exits : d.exits = c.exits
  depth : d.depth = c.depth
  copyAssigned : d.copyAssigned = c.copyAssigned

namespace Like

variable {c d : Checker}

theorem refl (c : Checker) : c.Like c :=
  ⟨rfl, rfl, rfl, rfl, rfl⟩

theorem symm (h : c.Like d) : d.Like c :=
  ⟨h.scopes.symm, h.causes.symm, h.exits.symm, h.depth.symm, h.copyAssigned.symm⟩

theorem trans {e : Checker} (h : c.Like d) (h' : d.Like e) : c.Like e :=
  ⟨h'.scopes.trans h.scopes, h'.causes.trans h.causes, h'.exits.trans h.exits,
    h'.depth.trans h.depth, h'.copyAssigned.trans h.copyAssigned⟩

theorem hasErrors (h : c.Like d) : d.hasErrors = c.hasErrors := by
  have size : d.errors.size = c.errors.size := by
    simpa only [Array.size_map] using congrArg Array.size h.causes
  simp only [Checker.hasErrors, Array.isEmpty, size]

/-- The scopes are changed in the same way. -/
theorem rescoped (h : c.Like d) (f : Scopes Ty → Scopes Ty) :
    Like { c with scopes := f c.scopes } { d with scopes := f d.scopes } :=
  ⟨congrArg f h.scopes, h.causes, h.exits, h.depth, h.copyAssigned⟩

theorem copying (h : c.Like d) (name : String) (entry : Entry Ty) (frame : Nat) :
    (c.copying name entry frame).Like (d.copying name entry frame) := by
  unfold Checker.copying
  rw [h.scopes, h.copyAssigned]
  split
  · exact ⟨rfl, h.causes, h.exits, h.depth, rfl⟩
  · exact h

end Like

end Checker

namespace CheckM

variable {α β : Type}

theorem follows_like : Follows Checker.Like fun _ _ => True where
  exits like := like.exits
  depth like := like.depth
  consumed like _ := ⟨like.scopes, like.causes, rfl, like.depth, like.copyAssigned⟩
  moved like _ := ⟨like.scopes, like.causes, like.exits, rfl, like.copyAssigned⟩
  noted like _ _ _ _ := by
    refine ⟨like.scopes, ?_, like.exits, like.depth, like.copyAssigned⟩
    simp only [Checker.noted, Array.map_push, like.causes]

/-- From states that differ in places only, both give the same result and leave such states. -/
def Alike (x y : CheckM α) : Prop :=
  ∀ c d, c.Like d → (y.run d).1 = (x.run c).1 ∧ (x.run c).2.Like (y.run d).2

theorem Alike.symm {x y : CheckM α} (h : Alike x y) : Alike y x := by
  intro c d like
  obtain ⟨same, after⟩ := h d c like.symm
  exact ⟨same.symm, after.symm⟩

theorem Alike.trans {x y z : CheckM α} (h : Alike x y) (h' : Alike y z) : Alike x z := by
  intro c d like
  obtain ⟨same, after⟩ := h c c (.refl c)
  obtain ⟨same', after'⟩ := h' c d like
  exact ⟨same'.trans same, after.trans after'⟩

theorem Alike.bind {x y : CheckM α} {f g : α → CheckM β} (first : Alike x y)
    (rest : ∀ a, Alike (f a) (g a)) : Alike (x >>= f) (y >>= g) :=
  Parallel.bind first rest

theorem alike_pure (a : α) : Alike (pure a) (pure a) :=
  parallel_pure a

theorem alike_report (cause : TypeError) (s t : Span) : Alike (report cause s) (report cause t) :=
  parallel_report follows_like cause trivial

/-- A conditional report, with what comes after it. -/
theorem alike_reportIf (reason : Prop) [Decidable reason] (cause : TypeError) (s t : Span)
    {f g : Unit → CheckM α} (rest : Alike (f ()) (g ())) :
    Alike (if reason then report cause s >>= f else f ())
      (if reason then report cause t >>= g else g ()) :=
  parallel_reportIf follows_like reason cause trivial rest

/-- A change of the scopes. -/
theorem alike_rescope (f : Scopes Ty → Scopes Ty) :
    Alike (modify fun c => { c with scopes := f c.scopes })
      (modify fun c => { c with scopes := f c.scopes }) :=
  fun _ _ like => ⟨rfl, like.rescoped f⟩

theorem alike_settle (verdict : Verdict) (s t : Span) :
    Alike (settle verdict s) (settle verdict t) :=
  parallel_settle follows_like verdict trivial

theorem alike_nested {x y : CheckM (Control Ty)} (h : Alike x y) (s t : Span) :
    Alike (nested s x) (nested t y) :=
  parallel_nested follows_like h trivial

theorem alike_inScope {x y : CheckM α} (h : Alike x y) : Alike (inScope x) (inScope y) := by
  intro c d like
  rw [run_inScope, run_inScope]
  obtain ⟨same, after⟩ := h _ _ (like.rescoped Scopes.enter)
  exact ⟨same, after.rescoped Scopes.exit⟩

theorem alike_consuming {x y : CheckM α} (h : Alike x y) :
    Alike (consuming x) (consuming y) :=
  parallel_consuming follows_like h

theorem alike_asValue {x y : CheckM (Control Ty)} (h : Alike x y) (s t : Span) :
    Alike (asValue s x) (asValue t y) :=
  parallel_asValue follows_like h trivial

theorem alike_recordExit (type : Ty) (s t : Span) :
    Alike (recordExit type s) (recordExit type t) :=
  parallel_recordExit follows_like type trivial

theorem alike_updateUnreachable (f : Nat → Nat) :
    Alike (updateUnreachable f) (updateUnreachable f) :=
  parallel_updateUnreachable follows_like f

theorem alike_lookup (ident : Ident) : Alike (lookup ident) (lookup (ident.respan f)) := by
  intro c d like
  have name : (ident.respan f).name = ident.name := rfl
  rw [run_lookup, run_lookup, like.scopes, name]
  split
  · exact ⟨rfl, like⟩
  · exact ⟨rfl, follows_like.noted like _ trivial⟩

theorem alike_assign (target : Ident) (actual : Ty) {site site' : Unit → String}
    (quoted : site' () = site ()) (s t : Span) :
    Alike (assign target actual site s) (assign (target.respan f) actual site' t) := by
  intro c d like
  cases found : c.scopes.find? target.name with
  | none =>
    have found' : d.scopes.find? (target.respan f).name = none := by
      rw [like.scopes]
      exact found
    rw [run_assign_unbound found, run_assign_unbound found']
    exact ⟨rfl, follows_like.noted like _ trivial⟩
  | some known =>
    obtain ⟨entry, frame⟩ := known
    have found' : d.scopes.find? (target.respan f).name = some (entry, frame) := by
      rw [like.scopes]
      exact found
    rw [run_assign_bound found, run_assign_bound found', quoted]
    refine ⟨rfl, Checker.Like.copying ?_ _ _ _⟩
    exact follows_like.notedIf (follows_like.notedIf like _ _ trivial) _ _ trivial

theorem alike_setAside (name : String) : Alike (setAside name) (setAside name) := by
  intro c d like
  rw [run_setAside, run_setAside, like.scopes]
  exact ⟨rfl, like.rescoped (·.erase name)⟩

theorem alike_join (first other : Control Ty) (compare : Bool) (s t : Span) :
    Alike (join first other compare s) (join first other compare t) :=
  parallel_join follows_like first other compare trivial

end CheckM

/-! ### Trees -/

open CheckM

mutual

theorem Expr.alike_check (e : Expr) : Alike e.check (e.respan f).check := by
  match e with
  | .literal value _ =>
    rw [Expr.respan, Expr.check, Expr.check]
    exact alike_nested (alike_pure _) _ _
  | .list [] _ =>
    rw [Expr.respan, Expr.respanAll, Expr.check, Expr.check]
    exact alike_nested (alike_pure _) _ _
  | .list (first :: rest) _ =>
    rw [Expr.respan, Expr.respanAll, Expr.check, Expr.check]
    refine alike_nested ((alike_asValue first.alike_check _ _).bind fun element => ?_) _ _
    exact (Expr.alike_checkItems element rest).bind fun _ => alike_pure _
  | .map [] _ =>
    rw [Expr.respan, Expr.respanEntries, Expr.check, Expr.check]
    exact alike_nested (alike_pure _) _ _
  | .map ((key, value) :: rest) _ =>
    rw [Expr.respan, Expr.respanEntries, Expr.check, Expr.check]
    refine alike_nested ((alike_asValue key.alike_check _ _).bind fun keyType => ?_) _ _
    refine (alike_asValue value.alike_check _ _).bind fun valueType => ?_
    exact (Expr.alike_checkEntries keyType valueType rest).bind fun _ => alike_pure _
  | .name ident _ =>
    rw [Expr.respan, Expr.check, Expr.check]
    exact alike_nested ((alike_lookup f ident).bind fun _ => alike_pure _) _ _
  | .unary op operand _ =>
    rw [Expr.respan, Expr.check, Expr.check]
    refine alike_nested ((alike_asValue operand.alike_check _ _).bind fun type => ?_) _ _
    exact (alike_settle _ _ _).bind fun _ => alike_pure _
  | .binary op lhs rhs span =>
    have quoted := (Expr.binary op lhs rhs span).sourceAt_respan f 0
    rw [Expr.respan] at quoted ⊢
    rw [Expr.check, Expr.check]
    refine alike_nested ((alike_asValue lhs.alike_check _ _).bind fun left => ?_) _ _
    refine (alike_asValue rhs.alike_check _ _).bind fun right => ?_
    simp only [Expr.source, quoted]
    exact (alike_settle _ _ _).bind fun _ => alike_pure _
  | .declare d _ =>
    rw [Expr.respan, Expr.check, Expr.check]
    exact alike_nested (d.alike_check.bind fun _ => alike_pure _) _ _
  | .assign target value span =>
    have quoted := (Expr.assign target value span).sourceAt_respan f 0
    rw [Expr.respan] at quoted ⊢
    rw [Expr.check, Expr.check]
    refine alike_nested ((alike_asValue value.alike_check _ _).bind fun actual => ?_) _ _
    exact (alike_assign f target actual quoted _ _).bind fun _ => alike_pure _
  | .block body _ =>
    rw [Expr.respan, Expr.check, Expr.check]
    exact alike_nested body.alike_check _ _
  | .cond branches _ =>
    rw [Expr.respan, Expr.check, Expr.check]
    exact alike_nested (branches.alike_check _ _) _ _
  | .loop vars body _ =>
    rw [Expr.respan, Expr.check, Expr.check]
    refine alike_nested ((Declaration.alike_checkVariables [] vars).bind fun aside => ?_) _ _
    refine (alike_consuming body.alike_check).bind fun ⟨_, exit?⟩ => ?_
    rw [Declaration.names_respanAll]
    exact (alike_rescope fun s => s.restore (vars.map (·.name.name)) aside).bind fun _ =>
      alike_pure _
  | .exit kind none _ =>
    rw [Expr.respan, Expr.check, Expr.check]
    exact alike_nested ((alike_recordExit _ _ _).bind fun _ => alike_pure _) _ _
  | .exit kind (some value) _ =>
    rw [Expr.respan, Expr.check, Expr.check]
    refine alike_nested ((alike_asValue value.alike_check _ _).bind fun type => ?_) _ _
    exact (alike_recordExit _ _ _).bind fun _ => alike_pure _
  | .call callee arguments _ =>
    rw [Expr.respan, Expr.check, Expr.check]
    refine alike_nested ((Expr.alike_checkArguments arguments).bind fun types => ?_) _ _
    dsimp only [Ident.respan]
    split
    · exact (alike_settle _ _ _).bind fun _ => alike_pure _
    · exact (alike_report _ _ _).bind fun _ => alike_pure _

theorem Expr.alike_checkItems (element : Ty) (items : List Expr) :
    Alike (Expr.checkItems element items) (Expr.checkItems element (Expr.respanAll f items)) := by
  match items with
  | [] => exact alike_pure ()
  | item :: rest =>
    rw [Expr.respanAll, Expr.checkItems, Expr.checkItems]
    refine (alike_asValue item.alike_check _ _).bind fun actual => ?_
    exact alike_reportIf _ _ _ _ (Expr.alike_checkItems element rest)

theorem Expr.alike_checkEntries (keyType valueType : Ty) (entries : List (Expr × Expr)) :
    Alike (Expr.checkEntries keyType valueType entries)
      (Expr.checkEntries keyType valueType (Expr.respanEntries f entries)) := by
  match entries with
  | [] => exact alike_pure ()
  | (key, value) :: rest =>
    rw [Expr.respanEntries, Expr.checkEntries, Expr.checkEntries]
    refine (alike_asValue key.alike_check _ _).bind fun actual => ?_
    refine alike_reportIf _ _ _ _ ?_
    refine (alike_asValue value.alike_check _ _).bind fun actual => ?_
    exact alike_reportIf _ _ _ _ (Expr.alike_checkEntries keyType valueType rest)

theorem Expr.alike_checkArguments (arguments : List Expr) :
    Alike (Expr.checkArguments arguments) (Expr.checkArguments (Expr.respanAll f arguments)) := by
  match arguments with
  | [] => exact alike_pure []
  | argument :: rest =>
    rw [Expr.respanAll, Expr.checkArguments, Expr.checkArguments]
    refine (alike_asValue argument.alike_check _ _).bind fun type => ?_
    exact (Expr.alike_checkArguments rest).bind fun _ => alike_pure _

theorem Declaration.alike_check (d : Declaration) : Alike d.check (d.respan f).check := by
  match d with
  | .mk binding name type value span =>
    have quoted := (Declaration.mk binding name type value span).sourceAt_respan f 0
    rw [Declaration.respan] at quoted ⊢
    rw [Declaration.check, Declaration.check]
    refine (alike_asValue value.alike_check _ _).bind fun actual => ?_
    simp only [Declaration.source, quoted, type.type_respan]
    refine alike_reportIf _ _ _ _ ?_
    exact (alike_rescope fun s => s.insert name.name ⟨type.type, binding⟩).bind fun _ =>
      alike_pure _

theorem Declaration.alike_checkVariables (earlier : List String) (ds : List Declaration) :
    Alike (Declaration.checkVariables earlier ds)
      (Declaration.checkVariables earlier (Declaration.respanAll f ds)) := by
  match ds with
  | [] => exact alike_pure []
  | d :: rest =>
    rw [Declaration.respanAll, Declaration.checkVariables, Declaration.checkVariables,
      d.name_respan]
    refine (alike_setAside _).bind fun previous => ?_
    refine d.alike_check.bind fun _ => ?_
    refine (Declaration.alike_checkVariables _ rest).bind fun aside => ?_
    cases previous <;> exact alike_pure _

theorem Block.alike_check (b : Block) : Alike b.check (b.respan f).check := by
  match b with
  | .mk statements _ =>
    rw [Block.respan, Block.check, Block.check]
    refine alike_inScope ((Expr.alike_checkStatements none statements).bind fun exit? => ?_)
    split
    · exact (alike_updateUnreachable _).bind fun _ => alike_pure _
    · exact alike_pure _

theorem Expr.alike_checkStatements (exit? : Option (Control Ty)) (statements : List Expr) :
    Alike (Expr.checkStatements exit? statements)
      (Expr.checkStatements exit? (Expr.respanAll f statements)) := by
  match statements with
  | [] => exact alike_pure exit?
  | statement :: rest =>
    rw [Expr.respanAll, Expr.checkStatements, Expr.checkStatements]
    refine statement.alike_check.bind fun result => ?_
    split
    · exact (alike_updateUnreachable _).bind fun _ => Expr.alike_checkStatements _ rest
    · exact Expr.alike_checkStatements exit? rest

theorem Conditional.alike_check (b : Conditional) (s t : Span) :
    Alike (b.check s) ((b.respan f).check t) := by
  match b with
  | .only condition body =>
    rw [Conditional.respan, Conditional.check, Conditional.check]
    refine (alike_asValue condition.alike_check _ _).bind fun type => ?_
    exact alike_reportIf _ _ _ _ (body.alike_check.bind fun _ => alike_pure _)
  | .withElse condition body otherwise =>
    rw [Conditional.respan, Conditional.check, Conditional.check]
    refine (alike_asValue condition.alike_check _ _).bind fun type => ?_
    refine alike_reportIf _ _ _ _ (body.alike_check.bind fun first => ?_)
    exact otherwise.alike_check.bind fun other => alike_join _ _ _ _ _
  | .withElseIf condition body next _ =>
    rw [Conditional.respan, Conditional.check, Conditional.check, next.isExhaustive_respan]
    refine (alike_asValue condition.alike_check _ _).bind fun type => ?_
    refine alike_reportIf _ _ _ _ (body.alike_check.bind fun first => ?_)
    exact (next.alike_check _ _).bind fun other => alike_join _ _ _ _ _

end

theorem Program.alike_check (p : Program) :
    Alike (Program.check p) (Program.check (p.respan f)) := by
  match p with
  | [] => exact alike_pure _
  | statement :: rest =>
    have others := Program.alike_check rest
    rw [Program.respan] at others ⊢
    rw [Expr.respanAll, Program.check, Program.check]
    exact (statement.alike_check f).bind fun result => others.bind fun _ => alike_pure _

end ExprLang
