import ExprLang.Proofs.Layout.Checking
import ExprLang.Proofs.Layout.Evaluation
import ExprLang.Proofs.ParallelReading
import ExprLang.Session

set_option autoImplicit false

/-!
Layout does not matter. Sources with the same words are read as the same program up to places, and
such programs are checked and run in the same way.
-/

namespace ExprLang

/-- Whatever has been checked or run before, and however many rounds the loops may take, checking
and running the one program is like checking and running the other. -/
structure Program.Interchangeable (p q : Program) : Prop where
  checked : ∀ c : Checker, (c.checkProgram q).1 = (c.checkProgram p).1 ∧
    (c.checkProgram p).2.Like (c.checkProgram q).2
  run : ∀ {σ : Type} [Sink σ] (rounds : Nat) (m : Machine σ),
    (m.runProgram rounds q).1 = (m.runProgram rounds p).1 ∧
      (m.runProgram rounds p).2.Like (m.runProgram rounds q).2

variable {σ : Type}

theorem Machine.outcome_of_alike {x y : EvalM σ (Control Value)} (h : x.Alike y) (m : Machine σ) :
    (m.outcome y).1 = (m.outcome x).1 ∧ (m.outcome x).2.Like (m.outcome y).2 := by
  have ends := h m m (.refl m)
  unfold Machine.outcome
  generalize x.run m = left at ends
  generalize y.run m = right at ends
  cases ends with
  | ok like => exact ⟨rfl, like⟩
  | out like => exact ⟨rfl, like⟩

theorem Program.interchangeable_of_bare {p q : Program} (same : q.bare = p.bare) :
    p.Interchangeable q where
  checked c := by
    have right : CheckM.Alike (Program.check p.bare) (Program.check q) := by
      rw [← same]
      exact (Program.alike_check _ q).symm
    exact (Program.alike_check _ p).trans right c c (.refl c)
  run {σ} _ rounds m := by
    have right : EvalM.Alike (Program.eval rounds p.bare : EvalM σ _) (Program.eval rounds q) := by
      rw [← same]
      exact (Program.alike_eval rounds q).symm
    exact Machine.outcome_of_alike ((Program.alike_eval rounds p).trans right) m

/-- Two sources without lexical errors that have the same words are read as the same program up to
places, and the two readings are interchangeable; or both are refused for the same reason. -/
theorem parse_of_same_words {s t : String} {left right : List Token}
    (scanned : (Stream.ofSource s).items = left.map .ok)
    (scanned' : (Stream.ofSource t).items = right.map .ok)
    (same : right.map (Token.word t) = left.map (Token.word s)) :
    (∃ p q, Program.parse s = .ok p ∧ Program.parse t = .ok q ∧ q.bare = p.bare ∧
        p.Interchangeable q) ∨
      ∃ e f, Program.parse s = .error e ∧ Program.parse t = .error f ∧ f.cause = e.cause := by
  have here : (Parser.ofSource s).Holds (left.map (Token.word s)) := ⟨⟨left, scanned, rfl⟩, rfl⟩
  have there : (Parser.ofSource t).Holds (left.map (Token.word s)) := ⟨⟨right, scanned', same⟩, rfl⟩
  unfold Program.parse
  obtain ⟨r, s, first, second, same⟩ | ⟨f, g, first, second, cause⟩ :=
    Parser.program_of_holds here there rfl rfl
  · rw [first, second]
    exact .inl ⟨_, _, rfl, rfl, same, Program.interchangeable_of_bare same⟩
  · rw [first, second]
    exact .inr ⟨_, _, rfl, rfl, cause⟩

section Spaced

/-- The tokens of `println(1/0);`, which start at the given offsets. -/
def quotientTokens (at₁ at₂ at₃ at₄ at₅ at₆ at₇ : UInt32) : List Token :=
  [⟨.ident, ⟨at₁, 7⟩⟩, ⟨.symbol .leftParen, ⟨at₂, 1⟩⟩, ⟨.int, ⟨at₃, 1⟩⟩,
   ⟨.symbol .slash, ⟨at₄, 1⟩⟩, ⟨.int, ⟨at₅, 1⟩⟩, ⟨.symbol .rightParen, ⟨at₆, 1⟩⟩,
   ⟨.symbol .semicolon, ⟨at₇, 1⟩⟩]

theorem parse_of_same_words_spaced :
    (Stream.ofSource "println(1/0);").items = (quotientTokens 0 7 8 9 10 11 12).map .ok ∧
    (Stream.ofSource " println ( 1 // one\n / 0 );").items =
        (quotientTokens 1 9 11 21 23 25 26).map .ok ∧
      ((∃ p q, Program.parse "println(1/0);" = .ok p ∧
          Program.parse " println ( 1 // one\n / 0 );" = .ok q ∧ q.bare = p.bare ∧
          p.Interchangeable q) ∨
        ∃ e f, Program.parse "println(1/0);" = .error e ∧
          Program.parse " println ( 1 // one\n / 0 );" = .error f ∧ f.cause = e.cause) := by
  have close : (Stream.ofSource "println(1/0);").items =
      (quotientTokens 0 7 8 9 10 11 12).map .ok := by
    with_unfolding_all rfl
  have wide : (Stream.ofSource " println ( 1 // one\n / 0 );").items =
      (quotientTokens 1 9 11 21 23 25 26).map .ok := by
    with_unfolding_all rfl
  exact ⟨close, wide, parse_of_same_words close wide (by decide +kernel)⟩

end Spaced

end ExprLang
