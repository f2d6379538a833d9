import ExprLang.Proofs.Nesting.Limit

set_option autoImplicit false

/-!
The limit on nesting only filters. A parser that keeps to it reads what a parser without a limit
reads, up to the first time that it finds the nesting too deep; and what can be read inside of
something can be read further out as well.
-/

namespace ExprLang

namespace Parser

variable {α : Type} {n : Nat}

/-- What an attempt gives, without the parser that it leaves. -/
def result : Attempt (Parsed n α) → Except (Located SyntaxError) α
  | .ok parsed => .ok parsed.value
  | .error failure => .error failure.error

/-- The parser that an attempt leaves. -/
def left : Attempt (Parsed n α) → Parser
  | .ok parsed => parsed.parser
  | .error failure => failure.parser

/-- Whether the nesting was too deep. -/
def gaveUp : Attempt (Parsed n α) → Bool
  | .ok _ => false
  | .error failure => failure.error.cause = .tooDeep

/-- The parser after so many expressions have been read, or have failed to be read. -/
def afterCalls (p : Parser) : Nat → Parser
  | 0 => p
  | calls + 1 => left (p.afterCalls calls).expression

/-- The same parser, this deep in already. -/
def atDepth (p : Parser) (depth : Nat) : Parser :=
  { p with depth }

section Filters

variable {m : Nat} {source source' : String} {a : Attempt (Parsed m α)}
  {b : Attempt (Parsed n α)}

/-- Where the second attempt does not give up, both give the same. -/
theorem ReadsNear.agree (h : ReadsNear (.inPlace source source') Eq a b)
    (reads : gaveUp b = false) :
    result a = result b ∧ (left a).Near (.inPlace source source') (left b) := by
  cases h with
  | ok near => exact ⟨congrArg Except.ok near.value, near.parser⟩
  | error cause span near =>
    exact ⟨congrArg Except.error (congr (congrArg Located.mk cause) span).symm, near⟩
  | tooDeep cause => exact absurd cause (of_decide_eq_false reads)

theorem ReadsSame.agree (h : ReadsSame source a b) (reads : gaveUp b = false) :
    result a = result b ∧ (left a).Roomier (left b) :=
  (ReadsNear.agree h reads).imp_right Near.roomier

/-- What the second attempt reads, the first one reads as well. -/
theorem ReadsSame.succeeds (h : ReadsSame source a b) {s : Parsed n α} (read : b = .ok s) :
    ∃ r, a = .ok r ∧ r.value = s.value ∧ r.parser.rest = s.parser.rest := by
  obtain ⟨r, read, value, near⟩ := Filters.succeeds h read
  exact ⟨r, read, value, near.roomier.rest⟩

end Filters

/-- The parser without a limit stays before the same items, call after call. -/
theorem roomier_afterCalls {p q : Parser} (roomier : p.Roomier q) (calls : Nat)
    (reads : ∀ k < calls, gaveUp (q.afterCalls k).expression = false) :
    (p.afterCalls calls).Roomier (q.afterCalls calls) := by
  induction calls with
  | zero => exact roomier
  | succ calls ih =>
    have before := ih fun k lt => reads k (Nat.lt_succ_of_lt lt)
    exact (ReadsSame.agree (expression_filters before) (reads calls (Nat.lt_succ_self calls))).2

theorem roomier_unlimited (source : String) :
    (ofSourceWith none source).Roomier (ofSource source) :=
  ⟨rfl, rfl, rfl, .inl rfl⟩

theorem roomier_atDepth (p : Parser) {d d' : Nat} (le : d ≤ d') :
    (p.atDepth d).Roomier (p.atDepth d') :=
  ⟨rfl, rfl, rfl, .inr ⟨rfl, le⟩⟩

end Parser

open ExprLang.Parser in
/-- On every source, the parser gives the same results and leaves the same items as the parser
without a limit, in reading one expression after the other and in reading a program, as long as it
has not given up. What it reads at some depth, it reads in the same way at a smaller depth. -/
theorem limit_only_filters (source : String) :
    (∀ calls, (∀ k ≤ calls, gaveUp ((ofSource source).afterCalls k).expression = false) →
      result ((ofSource source).afterCalls calls).expression =
          result ((ofSourceWith none source).afterCalls calls).expression ∧
        (left ((ofSource source).afterCalls calls).expression).rest =
          (left ((ofSourceWith none source).afterCalls calls).expression).rest) ∧
    (gaveUp (ofSource source).program = false →
      result (ofSource source).program = result (ofSourceWith none source).program ∧
        (left (ofSource source).program).rest = (left (ofSourceWith none source).program).rest) ∧
    (∀ (p : Parser) (d d' : Nat), d ≤ d' →
      (∀ s, (p.atDepth d').expression = .ok s → ∃ r, (p.atDepth d).expression = .ok r ∧
        r.value = s.value ∧ r.parser.rest = s.parser.rest) ∧
      ∀ s, (p.atDepth d').program = .ok s → ∃ r, (p.atDepth d).program = .ok r ∧
        r.value = s.value ∧ r.parser.rest = s.parser.rest) := by
  refine ⟨?_, ?_, ?_⟩
  · intro calls reads
    have before := roomier_afterCalls (roomier_unlimited source) calls fun k lt =>
      reads k (Nat.le_of_lt lt)
    obtain ⟨same, after⟩ :=
      ReadsSame.agree (expression_filters before) (reads calls (Nat.le_refl calls))
    exact ⟨same.symm, after.rest.symm⟩
  · intro reads
    obtain ⟨same, after⟩ := ReadsSame.agree (program_filters (roomier_unlimited source)) reads
    exact ⟨same.symm, after.rest.symm⟩
  · intro p d d' le
    have roomier := roomier_atDepth p le
    exact ⟨fun s read => ReadsSame.succeeds (expression_filters roomier) read,
      fun s read => ReadsSame.succeeds (program_filters roomier) read⟩

open ExprLang.Parser in
/-- The first call fails inside the brackets and leaves three levels counted; the second goes on. -/
theorem limit_only_filters_after_failure :
    (∀ k ≤ 1, gaveUp ((ofSource "(1 + ) -2;").afterCalls k).expression = false) ∧
    ((ofSource "(1 + ) -2;").afterCalls 1).depth = 3 ∧
    result ((ofSource "(1 + ) -2;").afterCalls 1).expression =
      result ((ofSourceWith none "(1 + ) -2;").afterCalls 1).expression ∧
    gaveUp (ofSource "(1 + ) -2;").program = false ∧
    result (ofSource "(1 + ) -2;").program = result (ofSourceWith none "(1 + ) -2;").program ∧
    ∃ s, ((ofSource "-2").atDepth 253).expression = .ok s ∧
      ∃ r, ((ofSource "-2").atDepth 0).expression = .ok r ∧ r.value = s.value ∧
        r.parser.rest = s.parser.rest := by
  have reads : ∀ k ≤ 1, gaveUp ((ofSource "(1 + ) -2;").afterCalls k).expression = false := by
    decide +kernel
  have parses : gaveUp (ofSource "(1 + ) -2;").program = false := by
    decide +kernel
  have inside : (((ofSource "-2").atDepth 253).expression).toBool = true := by
    decide +kernel
  obtain ⟨calls, program, _⟩ := limit_only_filters "(1 + ) -2;"
  obtain ⟨_, _, deeper⟩ := limit_only_filters "-2"
  refine ⟨reads, by decide +kernel, (calls 1 reads).1, parses, (program parses).1, ?_⟩
  cases read : ((ofSource "-2").atDepth 253).expression with
  | error failure =>
    rw [read] at inside
    cases inside
  | ok s => exact ⟨s, rfl, (deeper (ofSource "-2") 0 253 (by decide)).1 s read⟩

end ExprLang
