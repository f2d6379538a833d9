import ExprLang.Proofs.CheckerBalance

set_option autoImplicit false

/-!
The checker with strict accounts. It stops where a count would go below zero, where a frame or a
consumer is closed that was not opened, and where the type of an exit on record would be replaced.
None of this ever happens: with strict accounts the checker comes through wherever it starts, and
gives what it gives otherwise.
-/

namespace ExprLang

/-- Checking that can stop. -/
abbrev StrictM := StateT Checker Option

namespace StrictM

variable {α β : Type}

/-- Takes a step of the checker as it is. -/
def step (x : CheckM α) : StrictM α :=
  fun c => some (x.run c)

/-- Goes one level further out, if there is one. -/
def ascend : StrictM Unit := do
  let c ← get
  match c.depth with
  | 0 => failure
  | depth + 1 => set { c with depth }

def nested (span : Span) (node : StrictM (Control Ty)) : StrictM (Control Ty) := do
  if maxNesting ≤ (← get).depth then
    step (CheckM.report .tooDeep span)
    pure (.normal .none)
  else
    modify Checker.deeper
    let result ← node
    ascend
    pure result

/-- Leaves the current frame, if it is not the root. -/
def leave : StrictM Unit := do
  let c ← get
  match c.scopes.outer with
  | [] => failure
  | frame :: frames => set { c with scopes := ⟨frame, frames⟩ }

def inScope (node : StrictM α) : StrictM α := do
  modify Checker.entered
  let result ← node
  leave
  pure result

/-- Closes the innermost consumer, if one is open, and gives the type of its exits. -/
def close : StrictM (Option Ty) := do
  let c ← get
  match c.exits with
  | [] => failure
  | frame :: frames =>
    set { c with exits := frames }
    pure frame.type

def consuming (node : StrictM α) : StrictM (α × Option Ty) := do
  modify Checker.opened
  let result ← node
  let exit? ← close
  pure (result, exit?)

/-- Notes an exit, but not in place of another. -/
def recordExit (type : Ty) (span : Span) : StrictM Unit := do
  let before := (← get).exitType
  step (CheckM.recordExit type span)
  if before = none ∨ (← get).exitType = before then pure () else failure

/-- Takes back one of the blocks that have been left before the current statement, if there is
one. -/
def lowerUnreachable : StrictM Unit := do
  let c ← get
  match c.exits with
  | [] => pure ()
  | frame :: frames =>
    match frame.unreachable with
    | 0 => failure
    | unreachable + 1 => set { c with exits := { frame with unreachable } :: frames }

instance : MonadLiftT CheckM StrictM where
  monadLift := step

instance : Bookkeeping StrictM where
  nested := nested
  inScope := inScope
  consuming := consuming
  recordExit := recordExit
  lowerUnreachable := lowerUnreachable

/-! ### Strict accounts never stop the checker -/

open CheckM (Balanced)

theorem run_bind (x : StrictM α) (f : α → StrictM β) (c : Checker) :
    (x >>= f).run c = (x.run c).bind fun r => (f r.1).run r.2 := rfl

theorem run_get_bind (f : Checker → StrictM α) (c : Checker) :
    (get >>= f).run c = (f c).run c := rfl

/-- From every state, the strict check comes through and gives what the other gives. -/
def Agrees (x : StrictM α) (y : CheckM α) : Prop :=
  ∀ c, x.run c = some (y.run c)

/-- The checks agree, and the bookkeeping is left as it was: so what is open around them can be
closed. -/
structure Completes (x : StrictM α) (y : CheckM α) : Prop where
  agrees : Agrees x y
  balanced : Balanced False y

theorem Agrees.bind {x : StrictM α} {y : CheckM α} {f : α → StrictM β} {g : α → CheckM β}
    (first : Agrees x y) (rest : ∀ a, Agrees (f a) (g a)) : Agrees (x >>= f) (y >>= g) := by
  intro c
  rw [run_bind, first c]
  exact rest _ _

theorem Completes.bind {x : StrictM α} {y : CheckM α} {f : α → StrictM β} {g : α → CheckM β}
    (first : Completes x y) (rest : ∀ a, Completes (f a) (g a)) :
    Completes (x >>= f) (y >>= g) :=
  ⟨first.agrees.bind fun a => (rest a).agrees, first.balanced.bind fun a => (rest a).balanced⟩

theorem completes_pure (a : α) : Completes (pure a) (pure a) :=
  ⟨fun _ => rfl, CheckM.balanced_pure a⟩

theorem completes_step {y : CheckM α} (balanced : Balanced False y) : Completes (liftM y) y :=
  ⟨fun _ => rfl, balanced⟩

/-- The usual way to complain: under a condition, before going on. -/
theorem completes_reportIf {reason : Prop} [Decidable reason] (cause : TypeError) (span : Span)
    {next : Unit → StrictM α} {next' : Unit → CheckM α} (h : Completes (next ()) (next' ())) :
    Completes (if reason then liftM (CheckM.report cause span) >>= next else next ())
      (if reason then CheckM.report cause span >>= next' else next' ()) := by
  split
  · exact (completes_step (CheckM.balanced_report cause span)).bind fun _ => h
  · exact h

theorem run_ascend {c : Checker} (inside : 0 < c.depth) :
    ascend.run c = some ((), c.shallower) := by
  obtain ⟨depth, eq⟩ := Nat.exists_eq_add_one.2 inside
  rw [ascend, run_get_bind, Checker.shallower, eq]
  rfl

theorem run_leave {c : Checker} (inside : c.scopes.outer ≠ []) :
    leave.run c = some ((), c.left) := by
  obtain ⟨frame, frames, eq⟩ := List.exists_cons_of_ne_nil inside
  rw [leave, run_get_bind, Checker.left, Scopes.exit, eq]
  rfl

theorem run_close {c : Checker} (inside : c.exits ≠ []) :
    close.run c = some (c.exitType, c.closed) := by
  obtain ⟨frame, frames, eq⟩ := List.exists_cons_of_ne_nil inside
  rw [close, run_get_bind, Checker.exitType, Checker.closed, eq]
  rfl

/-- A count that is not zero can be lowered; at the top level there is none. -/
theorem run_lowerUnreachable {c : Checker}
    (counted : ∀ frame ∈ c.exits.head?, 0 < frame.unreachable) :
    lowerUnreachable.run c = some ((CheckM.updateUnreachable (· - 1)).run c) := by
  cases exits : c.exits with
  | nil =>
    rw [lowerUnreachable, run_get_bind, exits, CheckM.run_updateUnreachable_top exits]
    rfl
  | cons frame frames =>
    have positive : 0 < frame.unreachable := counted frame (by rw [exits]; rfl)
    obtain ⟨count, eq⟩ := Nat.exists_eq_add_one.2 positive
    rw [lowerUnreachable, run_get_bind, exits, CheckM.run_updateUnreachable_inner exits]
    dsimp only
    rw [eq]
    rfl

-- A count of zero is not lowered.
example : (lowerUnreachable.run { Checker.init with exits := [⟨none, 0⟩] }).isNone = true := rfl

theorem completes_nested {x : StrictM (Control Ty)} {y : CheckM (Control Ty)}
    (h : Completes x y) (span : Span) : Completes (nested span x) (CheckM.nested span y) := by
  refine ⟨fun c => ?_, CheckM.balanced_nested span h.balanced⟩
  have inside : 0 < (y.run c.deeper).2.depth := by
    rw [(h.balanced c.deeper).depth]
    exact Nat.succ_pos c.depth
  rw [CheckM.run_nested, nested, run_get_bind]
  split
  · rfl
  · have deeper : (modify Checker.deeper : StrictM Unit).run c = some ((), c.deeper) := rfl
    rw [run_bind, deeper, Option.bind_some, run_bind, h.agrees, Option.bind_some, run_bind,
      run_ascend inside]
    rfl

theorem completes_inScope {x : StrictM α} {y : CheckM α} (h : Completes x y) :
    Completes (inScope x) (CheckM.inScope y) := by
  refine ⟨fun c => ?_, fun c => (h.balanced c.entered).inScope⟩
  have entered : (modify Checker.entered : StrictM Unit).run c = some ((), c.entered) := rfl
  have inside : (y.run c.entered).2.scopes.outer ≠ [] := by
    rw [(h.balanced c.entered).outer]
    exact List.cons_ne_nil _ _
  rw [CheckM.run_inScope, inScope, run_bind, entered, Option.bind_some, run_bind, h.agrees,
    Option.bind_some, run_bind, run_leave inside]
  rfl

theorem completes_consuming {x : StrictM α} {y : CheckM α} (h : Completes x y) :
    Completes (consuming x) (CheckM.consuming y) := by
  refine ⟨fun c => ?_, CheckM.balanced_consuming h.balanced⟩
  have opened : (modify Checker.opened : StrictM Unit).run c = some ((), c.opened) := rfl
  have inside : (y.run c.opened).2.exits ≠ [] := (h.balanced c.opened).exits.ne_nil
  rw [consuming, run_bind, opened, Option.bind_some, run_bind, h.agrees, Option.bind_some, run_bind,
    run_close inside]
  rfl

theorem completes_asValue {x : StrictM (Control Ty)} {y : CheckM (Control Ty)}
    (h : Completes x y) (span : Span) :
    Completes (CheckM.asValue span x) (CheckM.asValue span y) := by
  apply (completes_consuming h).bind
  rintro ⟨result, exit?⟩
  cases result with
  | normal type =>
    cases exit? with
    | none => exact completes_pure _
    | some exit => exact completes_reportIf _ _ (completes_pure _)
  | returned | broke => exact completes_pure _

theorem completes_recordExit (type : Ty) (span : Span) :
    Completes (recordExit type span) (CheckM.recordExit type span) := by
  have balanced : Balanced False (CheckM.recordExit type span) :=
    CheckM.balanced_recordExit type span
  refine ⟨fun c => ?_, balanced⟩
  have kept : c.exitType = none ∨
      ((CheckM.recordExit type span).run c).2.exitType = c.exitType := by
    cases seen : c.exitType with
    | none => exact .inl rfl
    | some t => exact .inr ((balanced c).exitType_eq seen)
  have taken : (step (CheckM.recordExit type span)).run c =
      some ((CheckM.recordExit type span).run c) := rfl
  rw [recordExit, run_get_bind, run_bind, taken, Option.bind_some, run_get_bind, if_pos kept]
  rfl

/-- At the end of a block that is left for certain, the count is not zero: the block itself is
counted. -/
theorem completes_inside {statements : List Expr}
    (h : Agrees (Expr.checkStatements none statements) (Expr.checkStatements none statements)) :
    Completes
      (do
        let exit? ← Expr.checkStatements none statements
        if exit?.isSome then
          lowerUnreachable
        pure (exit?.getD (.normal .none)))
      (do
        let exit? ← Expr.checkStatements none statements
        if exit?.isSome then
          CheckM.updateUnreachable (· - 1)
        pure (exit?.getD (.normal .none))) := by
  refine ⟨fun c => ?_, Block.balanced_inside fun s _ => s.anyhow_check⟩
  rw [run_bind, h c, Option.bind_some, CheckM.run_bind]
  cases found : ((Expr.checkStatements none statements).run c).1 with
  | none => rfl
  | some exit =>
    -- the statements after the exit have left the count where the exit put it
    have counted := (Expr.kept_checkStatements_found found).exits.counted
    show (lowerUnreachable >>= fun _ => pure exit : StrictM (Control Ty)).run _ = _
    rw [run_bind, run_lowerUnreachable counted]
    rfl

end StrictM

open StrictM

mutual

theorem Expr.completes_check (e : Expr) : Completes e.check e.check := by
  match e with
  | .literal value _ =>
    rw [Expr.check, Expr.check]
    apply completes_nested
    exact completes_pure _
  | .list [] _ =>
    rw [Expr.check, Expr.check]
    apply completes_nested
    exact completes_pure _
  | .list (first :: rest) _ =>
    rw [Expr.check, Expr.check]
    apply completes_nested
    refine (completes_asValue first.completes_check _).bind fun element => ?_
    exact (Expr.completes_checkItems element rest).bind fun _ => completes_pure _
  | .map [] _ =>
    rw [Expr.check, Expr.check]
    apply completes_nested
    exact completes_pure _
  | .map ((key, value) :: rest) _ =>
    rw [Expr.check, Expr.check]
    apply completes_nested
    refine (completes_asValue key.completes_check _).bind fun keyType => ?_
    refine (completes_asValue value.completes_check _).bind fun valueType => ?_
    exact (Expr.completes_checkEntries keyType valueType rest).bind fun _ => completes_pure _
  | .name ident _ =>
    rw [Expr.check, Expr.check]
    apply completes_nested
    exact (completes_step (CheckM.balanced_lookup _)).bind fun _ => completes_pure _
  | .unary op operand _ =>
    rw [Expr.check, Expr.check]
    apply completes_nested
    refine (completes_asValue operand.completes_check _).bind fun type => ?_
    exact (completes_step (CheckM.balanced_settle _ _)).bind fun _ => completes_pure _
  | .binary op lhs rhs _ =>
    rw [Expr.check, Expr.check]
    apply completes_nested
    refine (completes_asValue lhs.completes_check _).bind fun left => ?_
    refine (completes_asValue rhs.completes_check _).bind fun right => ?_
    exact (completes_step (CheckM.balanced_settle _ _)).bind fun _ => completes_pure _
  | .declare d _ =>
    rw [Expr.check, Expr.check]
    apply completes_nested
    exact d.completes_check.bind fun _ => completes_pure _
  | .assign target value _ =>
    rw [Expr.check, Expr.check]
    apply completes_nested
    refine (completes_asValue value.completes_check _).bind fun actual => ?_
    exact (completes_step (CheckM.balanced_assign _ _ _ _)).bind fun _ => completes_pure _
  | .block body _ =>
    rw [Expr.check, Expr.check]
    apply completes_nested
    exact body.completes_check
  | .cond branches span =>
    rw [Expr.check, Expr.check]
    apply completes_nested
    exact branches.completes_check span
  | .loop vars body _ =>
    rw [Expr.check, Expr.check]
    apply completes_nested
    refine (Declaration.completes_checkVariables [] vars).bind fun aside => ?_
    refine (completes_consuming body.completes_check).bind fun found => ?_
    exact (completes_step (CheckM.balanced_restore _ aside)).bind fun _ => completes_pure _
  | .exit kind none _ =>
    rw [Expr.check, Expr.check]
    apply completes_nested
    exact (completes_recordExit _ _).bind fun _ => completes_pure _
  | .exit kind (some value) _ =>
    rw [Expr.check, Expr.check]
    apply completes_nested
    refine (completes_asValue value.completes_check _).bind fun type => ?_
    exact (completes_recordExit _ _).bind fun _ => completes_pure _
  | .call callee arguments _ =>
    rw [Expr.check, Expr.check]
    apply completes_nested
    refine (Expr.completes_checkArguments arguments).bind fun types => ?_
    cases Builtin.ofName? callee.name with
    | none => exact (completes_step (CheckM.balanced_report _ _)).bind fun _ => completes_pure _
    | some f => exact (completes_step (CheckM.balanced_settle _ _)).bind fun _ => completes_pure _

theorem Expr.completes_checkItems (element : Ty) (items : List Expr) :
    Completes (Expr.checkItems element items) (Expr.checkItems element items) := by
  match items with
  | [] =>
    rw [Expr.checkItems, Expr.checkItems]
    exact completes_pure _
  | item :: rest =>
    rw [Expr.checkItems, Expr.checkItems]
    refine (completes_asValue item.completes_check _).bind fun actual => ?_
    exact completes_reportIf _ _ (Expr.completes_checkItems element rest)

theorem Expr.completes_checkEntries (keyType valueType : Ty) (entries : List (Expr × Expr)) :
    Completes (Expr.checkEntries keyType valueType entries)
      (Expr.checkEntries keyType valueType entries) := by
  match entries with
  | [] =>
    rw [Expr.checkEntries, Expr.checkEntries]
    exact completes_pure _
  | (key, value) :: rest =>
    rw [Expr.checkEntries, Expr.checkEntries]
    refine (completes_asValue key.completes_check _).bind fun actual => ?_
    refine completes_reportIf _ _ ?_
    refine (completes_asValue value.completes_check _).bind fun actual => ?_
    exact completes_reportIf _ _ (Expr.completes_checkEntries keyType valueType rest)

theorem Expr.completes_checkArguments (arguments : List Expr) :
    Completes (Expr.checkArguments arguments) (Expr.checkArguments arguments) := by
  match arguments with
  | [] =>
    rw [Expr.checkArguments, Expr.checkArguments]
    exact completes_pure _
  | argument :: rest =>
    rw [Expr.checkArguments, Expr.checkArguments]
    refine (completes_asValue argument.completes_check _).bind fun type => ?_
    exact (Expr.completes_checkArguments rest).bind fun _ => completes_pure _

theorem Declaration.completes_check (d : Declaration) : Completes d.check d.check := by
  match d with
  | .mk binding name type value _ =>
    rw [Declaration.check, Declaration.check]
    refine (completes_asValue value.completes_check _).bind fun actual => ?_
    refine completes_reportIf _ _ ?_
    exact (completes_step (CheckM.balanced_declare _ _)).bind fun _ => completes_pure _

theorem Declaration.completes_checkVariables (earlier : List String)
    (vars : List Declaration) :
    Completes (Declaration.checkVariables earlier vars)
      (Declaration.checkVariables earlier vars) := by
  match vars with
  | [] =>
    rw [Declaration.checkVariables, Declaration.checkVariables]
    exact completes_pure _
  | d :: rest =>
    rw [Declaration.checkVariables, Declaration.checkVariables]
    refine (completes_step (CheckM.balanced_setAside _)).bind fun previous => ?_
    refine d.completes_check.bind fun _ => ?_
    refine (Declaration.completes_checkVariables _ rest).bind fun aside => ?_
    cases previous <;> exact completes_pure _

theorem Block.completes_check (body : Block) : Completes body.check body.check := by
  match body with
  | .mk statements _ =>
    rw [Block.check, Block.check]
    apply completes_inScope
    exact completes_inside (Expr.agrees_checkStatements none statements)

theorem Expr.agrees_checkStatements (exit? : Option (Control Ty)) (statements : List Expr) :
    Agrees (Expr.checkStatements exit? statements) (Expr.checkStatements exit? statements) := by
  match statements with
  | [] =>
    rw [Expr.checkStatements, Expr.checkStatements]
    exact fun _ => rfl
  | statement :: rest =>
    rw [Expr.checkStatements, Expr.checkStatements]
    refine statement.completes_check.agrees.bind fun result => ?_
    split
    · have counted : Agrees (liftM (CheckM.updateUnreachable (· + 1)))
          (CheckM.updateUnreachable (· + 1)) := fun _ => rfl
      exact counted.bind fun _ => Expr.agrees_checkStatements (some result) rest
    · exact Expr.agrees_checkStatements exit? rest

theorem Conditional.completes_check (branches : Conditional) (span : Span) :
    Completes (branches.check span) (branches.check span) := by
  match branches with
  | .only condition body =>
    rw [Conditional.check, Conditional.check]
    refine (completes_asValue condition.completes_check _).bind fun type => ?_
    refine completes_reportIf _ _ ?_
    exact body.completes_check.bind fun _ => completes_pure _
  | .withElse condition body otherwise =>
    rw [Conditional.check, Conditional.check]
    refine (completes_asValue condition.completes_check _).bind fun type => ?_
    refine completes_reportIf _ _ ?_
    refine body.completes_check.bind fun first => ?_
    refine otherwise.completes_check.bind fun other => ?_
    exact completes_step (CheckM.balanced_join _ _ _ _)
  | .withElseIf condition body next nextSpan =>
    rw [Conditional.check, Conditional.check]
    refine (completes_asValue condition.completes_check _).bind fun type => ?_
    refine completes_reportIf _ _ ?_
    refine body.completes_check.bind fun first => ?_
    refine (next.completes_check nextSpan).bind fun other => ?_
    exact completes_step (CheckM.balanced_join _ _ _ _)

end

end ExprLang
