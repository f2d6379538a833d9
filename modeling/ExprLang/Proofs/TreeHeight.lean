import ExprLang.Proofs.Nesting.Towers
import ExprLang.Proofs.RoundTrip

set_option autoImplicit false

/-!
How high the tree of a program is that was read. The limit on nesting bounds the steps down the tree
at which it is looked at, and so all of them but for left operands, conditions after `else` and
types. Through each of these a tree can be as high as one likes.
-/

namespace ExprLang

theorem Parser.at_ofSource (text : String) :
    (Parser.ofSource text).At (2 * maxNesting) 0 :=
  ⟨rfl, rfl⟩

/-- A source whose one statement is read as an expression that is higher than a number. -/
theorem Program.exists_parse_of_arrives {text : String} {word : Word} {words : List Word} {n : Nat}
    (lexes : Lexes text.toList (word :: words)) (opens : word.1.opens = true)
    (reads : ∀ {p : Parser}, p.Ready (2 * maxNesting) 0 (word :: words) →
      Parser.Arrives (2 * maxNesting) 0 p.expression (fun e => n < e.heightBy .all)
        [Symbol.semicolon.word]) :
    ∃ p, Program.parse text = .ok p ∧ n < p.height := by
  have ready : (Parser.ofSource text).Ready (2 * maxNesting) 0 (word :: words) :=
    ⟨lexes.kinds_ofSource, rfl, Parser.at_ofSource text⟩
  have arrives := ready.program opens (reads ready)
  unfold Program.parse
  cases read : (Parser.ofSource text).program with
  | ok found =>
    rw [read] at arrives
    obtain ⟨e, single, high⟩ := arrives.1
    refine ⟨found.value, rfl, ?_⟩
    rw [single]
    exact Nat.lt_of_lt_of_le high (Nat.le_max_left ..)
  | error failure =>
    rw [read] at arrives
    exact arrives.elim

/-- The steps that are guarded are bounded by the limit, and only the others make a tree higher. -/
theorem height_of_parse {source : String} {p : Program} (parsed : Program.parse source = .ok p) :
    p.heightBy .guarded ≤ 6 * maxNesting + 1 ∧
      p.height ≤ 6 * maxNesting + 1 + p.heightBy .unguarded := by
  obtain ⟨q, reaches⟩ := Program.reaches_of_parse parsed
  have bounded : p.heightBy .guarded ≤ Parser.room (2 * maxNesting) 0 + 1 :=
    (reaches.bounded (Parser.at_ofSource source)).1
  have total := p.height_le
  unfold Parser.room at bounded
  exact ⟨by omega, by omega⟩

section Crossed

/-- A left operand, a condition after an `else` and a type inside of a type. -/
def crossed : Program :=
  [.cond (.withElseIf
    (.binary .subtract (.name ⟨"a", ⟨3, 1⟩⟩ ⟨3, 1⟩) (.name ⟨"b", ⟨7, 1⟩⟩ ⟨7, 1⟩) ⟨3, 5⟩)
    (.mk [] ⟨14, 2⟩)
    (.only (.name ⟨"c", ⟨25, 1⟩⟩ ⟨25, 1⟩)
      (.mk [.declare
        (.mk .var ⟨"x", ⟨38, 1⟩⟩ (.list (.int ⟨45, 3⟩) ⟨40, 9⟩)
          (.name ⟨"d", ⟨53, 1⟩⟩ ⟨53, 1⟩) ⟨34, 20⟩) ⟨34, 20⟩] ⟨32, 25⟩)) ⟨22, 35⟩) ⟨0, 57⟩]

def crossedSource : String :=
  "if a - b then \x7b\x7d else if c then \x7b var x list[int] is d; \x7d;"

theorem height_of_crossed :
    Program.parse crossedSource = .ok crossed ∧ crossed.heightBy .unguarded = 3 ∧
      crossed.heightBy .guarded ≤ 6 * maxNesting + 1 ∧
      crossed.height ≤ 6 * maxNesting + 1 + crossed.heightBy .unguarded := by
  have parsed : Program.parse crossedSource = .ok crossed := by
    with_unfolding_all rfl
  exact ⟨parsed, by decide +kernel, height_of_parse parsed⟩

end Crossed

/-- No number bounds the heights of all programs that are read: types, conditions after `else` and
left operands each make a tree as high as one likes. -/
theorem height_unbounded :
    (¬ ∃ bound, ∀ source p, Program.parse source = .ok p → p.height ≤ bound) ∧
      ∀ n, ∀ source ∈ [nestedTypes n, elseIfChain n, sumChain n],
        ∃ p, Program.parse source = .ok p ∧ n < p.height := by
  have types (n : Nat) : ∃ p, Program.parse (nestedTypes n) = .ok p ∧ n < p.height :=
    Program.exists_parse_of_arrives (lexes_nestedTypes n) rfl
      fun ready => ready.declaration_tower n (by decide)
  have links (n : Nat) : ∃ p, Program.parse (elseIfChain n) = .ok p ∧ n < p.height :=
    Program.exists_parse_of_arrives (lexes_elseIfChain n) rfl
      fun ready => ready.expression_chain n (by decide)
  have sums (n : Nat) : ∃ p, Program.parse (sumChain n) = .ok p ∧ n < p.height :=
    Program.exists_parse_of_arrives (lexes_sumChain n) rfl
      fun ready => ready.expression_sum n (by decide)
  constructor
  · rintro ⟨bound, bounded⟩
    obtain ⟨p, parsed, high⟩ := types bound
    exact Nat.not_le_of_lt high (bounded _ p parsed)
  · intro n
    simp only [List.forall_mem_cons, List.not_mem_nil, false_implies, implies_true, and_true]
    exact ⟨types n, links n, sums n⟩

end ExprLang
