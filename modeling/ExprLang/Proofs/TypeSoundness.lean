import ExprLang.Proofs.Soundness.Visit

set_option autoImplicit false

/-!
Type soundness. A program that the checker accepts runs without trouble, but for zero divisors and
positions out of range, and every evaluation in it gives what the checker says.
-/

namespace ExprLang

open Soundness

theorem RuntimeError.isExpected_iff {cause : RuntimeError} :
    cause.isExpected = true ↔
      (∃ result, cause = .operation (.divisionByZero result)) ∨
        cause = .operation .moduloByZero ∨
        ∃ index length fallback,
          cause = .operation (.indexOutOfRange index length fallback) := by
  cases cause with
  | operation error => cases error <;> simp [isExpected, OperationError.isExpected]
  | _ => simp [isExpected]

variable {σ : Type} [Sink σ]

/-- Only expected errors are noted in the run of a checked program. Evaluation that runs out of
rounds keeps the state it has come to, so this covers runs without end; and it covers every state in
which some part of the program begins to be evaluated. -/
theorem errors_of_checked_program (p : Program) (quiet : p.QuietElseIfs)
    (checked : (Checker.init.checkProgram p).2.hasErrors = false) (rounds : Nat) (sink : σ)
    (m : Machine σ)
    (reached : m = ((Machine.init sink).runProgram rounds p).2 ∨
      ∃ c x, Visits rounds p sink c m x) :
    ∀ e ∈ m.errors,
      (∃ result, e.cause = .operation (.divisionByZero result)) ∨
        e.cause = .operation .moduloByZero ∨
        ∃ index length fallback,
          e.cause = .operation (.indexOutOfRange index length fallback) := by
  have clean : ((Program.check p).run Checker.init).2.Clean := Checker.clean_iff.2 checked
  have sounds : ∀ s ∈ p, Sound σ True #[] rounds s := fun s inside => sound s (quiet s inside)
  have foreseen : Foreseen True #[] m := by
    rcases reached with rfl | ⟨c, x, visit⟩
    · exact foreseen_run sounds (agree_init sink) clean
    · exact (visit.ready quiet clean).agree.errors
  intro e inside
  rcases foreseen e inside with absurd | allowed
  · exact False.elim (Array.not_mem_empty e absurd)
  · exact RuntimeError.isExpected_iff.1 (allowed.2 trivial)

section FaultyLoop

private def nowhere : Span := ⟨0, 0⟩

private def counter : Ident := ⟨"i", nowhere⟩

private def counted : Expr := .name counter nowhere

private def number (n : Int) : Expr := .literal (.int n) nowhere

private def operation (op : BinaryOp) (lhs rhs : Expr) : Expr := .binary op lhs rhs nowhere

/-- Counts to two, divides by zero on the way, and returns an item that a list does not have. -/
def faultyLoop : Program :=
  [.loop [.mk .var counter (.int nowhere) (number 0) nowhere]
    (.mk
      [.assign counter (operation .add counted (number 1)) nowhere,
        .cond (.withElseIf (operation .equal counted (number 2))
          (.mk [.exit .return_ (some (operation .index (.list [number 7] nowhere) counted)) nowhere]
            nowhere)
          (.only (operation .equal counted (number 1))
            (.mk [.call ⟨"println", nowhere⟩ [operation .divide (number 1) (number 0)] nowhere]
              nowhere))
          nowhere) nowhere] nowhere) nowhere]

theorem errors_of_faultyLoop :
    ((Machine.init Buffer.empty).runProgram 3 faultyLoop).2.errors.map (·.cause.code) =
        #["RT001", "RT003"] ∧
      ∀ e ∈ ((Machine.init Buffer.empty).runProgram 3 faultyLoop).2.errors,
        (∃ result, e.cause = .operation (.divisionByZero result)) ∨
          e.cause = .operation .moduloByZero ∨
          ∃ index length fallback,
            e.cause = .operation (.indexOutOfRange index length fallback) :=
  ⟨by decide +kernel, errors_of_checked_program faultyLoop (by decide +kernel)
    (by decide +kernel) 3 Buffer.empty _ (.inl rfl)⟩

end FaultyLoop

/-- What an evaluation in the run of a checked program comes to, against what the checker says of
the expression: a certain exit is an exit, and a normal result is of the type, all the way down. The
value of an exit is of the type that the checker has on record for the innermost consumer. -/
theorem evaluation_fits_checking (p : Program) (quiet : p.QuietElseIfs)
    (checked : (Checker.init.checkProgram p).2.hasErrors = false) (rounds : Nat) (sink : σ) :
    (∀ c m x, Visits rounds p sink c m x → ∀ r m', (x.eval rounds).run m = .ok r m' →
      ((x.check.run c).1.isSignal = true → r.isSignal = true) ∧
      (∀ t v, (x.check.run c).1 = .normal t → r = .normal v → v.Deep ∧ v.type = t) ∧
      (r.isSignal = true → ∀ frame ∈ (x.check.run c).2.exits.head?,
        frame.type = some r.value.type)) ∧
    ((Checker.init.checkProgram p).1.isSignal = true →
      ∀ r, ((Machine.init sink).runProgram rounds p).1 = some r → r.isSignal = true) := by
  have clean : ((Program.check p).run Checker.init).2.Clean := Checker.clean_iff.2 checked
  refine ⟨fun c m x visit r m' ran => ?_, fun certain r ran => ?_⟩
  · obtain ⟨agree, quiet, here⟩ := visit.ready quiet clean
    obtain ⟨-, fits⟩ := (sound x quiet c m agree here).of_ok ran
    have fits := fits trivial
    refine ⟨fits.certain, fun t v ht hv => ?_, fun signal => ?_⟩
    · have hasType := fits.normal t v ht hv
      exact ⟨hasType.deep, hasType.type⟩
    · obtain ⟨t, hasType, records⟩ := fits.signal signal
      rw [hasType.type]
      exact records
  · have sounds : ∀ s ∈ p, Sound σ True #[] rounds s := fun s inside => sound s (quiet s inside)
    have done := (ends_program sounds (agree_init sink) clean).of_ok (Machine.outcome_eq_some ran)
    exact done.certain trivial certain

section ExitInList

/-- Leaves a block with a number, in a place where its value is used. -/
def exitInList : Program :=
  [.list [.block (.mk [.exit .return_ (some (.literal (.int 1) nowhere)) nowhere] nowhere) nowhere,
    .literal (.int 2) nowhere] nowhere]

theorem evaluation_fits_exitInList :
    ∃ c m x r m', Visits 0 exitInList Buffer.empty c m x ∧ (x.eval 0).run m = .ok r m' ∧
      r = .returned (.int 1) ∧ c.exits.length = 1 ∧
      ∀ frame ∈ (x.check.run c).2.exits.head?, frame.type = some .int := by
  have list := @Visits.statement Buffer _ 0 exitInList Buffer.empty [] [] _ .none _ rfl rfl
  have block := list.inside (by decide)
    (@InExpr.operand Buffer _ 0 _ _ _ _ [] _ [] _ rfl rfl)
  have exit := block.inside (by decide)
    (.block (@InBlock.statement Buffer _ 0 _ _ _ [] [] _ .none _ rfl rfl))
  refine ⟨_, _, _, _, _, exit, rfl, rfl, rfl, ?_⟩
  have fits := (evaluation_fits_checking exitInList (by decide +kernel) (by decide +kernel) 0
    Buffer.empty).1 _ _ _ exit _ _ rfl
  exact fits.2.2 rfl

end ExitInList

end ExprLang
