import ExprLang.Proofs.Layout
import ExprLang.Proofs.RoundTrip

set_option autoImplicit false

/-!
Writing a program keeps its meaning: what is read from the text that is written for it is checked
and run as the program is. Literals that cannot be written, and operands that lose their brackets,
are left out, and there the meaning does change; so are texts that are too long for their offsets.
-/

namespace ExprLang

/-- A program that a checker accepts is accepted again in the form in which it is written, and runs
as before. -/
theorem source_keeps_meaning {text : String} (small : text.utf8ByteSize < UInt32.size)
    {p : Program} (parsed : Program.parse text = .ok p) (plain : ∀ s ∈ p, s.Everywhere Expr.Plain)
    (small' : p.source.utf8ByteSize < UInt32.size) {c : Checker}
    (accepted : (c.checkProgram p).2.hasErrors = false) :
    (∃ q, Program.parse p.source = .ok q ∧ (c.checkProgram q).2.hasErrors = false ∧
        p.Interchangeable q) ∨
      ∃ error, Program.parse p.source = .error error ∧ error.cause = .tooDeep := by
  have reads := Program.reads_source small parsed plain small'
  unfold Program.parse
  cases read : (Parser.ofSource p.source).program with
  | ok found =>
    rw [read] at reads
    have same := Program.interchangeable_of_bare reads.1
    refine .inl ⟨found.value, rfl, ?_, same⟩
    rw [(same.checked c).2.hasErrors]
    exact accepted
  | error failure =>
    rw [read] at reads
    exact .inr ⟨failure.error, rfl, reads⟩

section Remainder

/-- The remainder of a number below zero by zero, and the length of a string with an escape. -/
def remainder : Program :=
  [.declare (.mk .const ⟨"n", ⟨6, 1⟩⟩ (.int ⟨8, 3⟩) (.literal (.int 4) ⟨15, 1⟩) ⟨0, 16⟩) ⟨0, 16⟩,
   .call ⟨"println", ⟨18, 7⟩⟩
    [.binary .add
      (.binary .modulo (.unary .minus (.name ⟨"n", ⟨27, 1⟩⟩ ⟨27, 1⟩) ⟨26, 2⟩)
        (.literal (.int 0) ⟨31, 1⟩) ⟨26, 6⟩)
      (.call ⟨"len", ⟨35, 3⟩⟩ [.literal (.str "a\tb") ⟨39, 6⟩] ⟨35, 11⟩) ⟨26, 20⟩] ⟨18, 29⟩]

theorem source_keeps_meaning_of_remainder :
    Program.parse "const n int is 4; println(-n % 0 + len(\"a\\tb\"));" = .ok remainder ∧
    (∀ s ∈ remainder, s.Everywhere Expr.Plain) ∧
    (Checker.init.checkProgram remainder).2.hasErrors = false ∧
      ((∃ q, Program.parse remainder.source = .ok q ∧
          (Checker.init.checkProgram q).2.hasErrors = false ∧ remainder.Interchangeable q) ∨
        ∃ error, Program.parse remainder.source = .error error ∧ error.cause = .tooDeep) := by
  have parsed : Program.parse "const n int is 4; println(-n % 0 + len(\"a\\tb\"));" =
      .ok remainder := by
    with_unfolding_all rfl
  have plain : ∀ s ∈ remainder, s.Everywhere Expr.Plain := by
    decide +kernel
  have accepted : (Checker.init.checkProgram remainder).2.hasErrors = false := by
    decide +kernel
  exact ⟨parsed, plain, accepted,
    source_keeps_meaning (by decide +kernel) parsed plain (by decide +kernel) accepted⟩

end Remainder

section Unbracketed

/-- A sum whose first operand is a declaration, in brackets. -/
def bracketed : Program :=
  [.declare (.mk .var ⟨"x", ⟨4, 1⟩⟩ (.int ⟨6, 3⟩)
    (.binary .add
      (.declare (.mk .var ⟨"y", ⟨18, 1⟩⟩ (.int ⟨20, 3⟩) (.literal (.int 1) ⟨27, 1⟩) ⟨14, 14⟩)
        ⟨13, 16⟩)
      (.literal (.int 2) ⟨32, 1⟩) ⟨13, 20⟩) ⟨0, 33⟩) ⟨0, 33⟩,
   .call ⟨"println", ⟨35, 7⟩⟩ [.name ⟨"y", ⟨43, 1⟩⟩ ⟨43, 1⟩] ⟨35, 10⟩]

/-- What is read from the text that is written for it: the declaration takes in the whole sum. -/
def unbracketed : Program :=
  [.declare (.mk .var ⟨"x", ⟨4, 1⟩⟩ (.int ⟨6, 3⟩)
    (.declare (.mk .var ⟨"y", ⟨18, 1⟩⟩ (.int ⟨20, 3⟩)
      (.binary .add (.literal (.int 1) ⟨27, 1⟩) (.literal (.int 2) ⟨31, 1⟩) ⟨27, 5⟩) ⟨14, 18⟩)
      ⟨13, 20⟩) ⟨0, 33⟩) ⟨0, 33⟩,
   .call ⟨"println", ⟨35, 7⟩⟩ [.name ⟨"y", ⟨43, 1⟩⟩ ⟨43, 1⟩] ⟨35, 10⟩]

/-- Both programs are accepted, and they print different numbers. -/
theorem source_changes_meaning_of_bracketed :
    Program.parse "var x int is (var y int is 1) + 2; println(y);" = .ok bracketed ∧
    (Checker.init.checkProgram bracketed).2.hasErrors = false ∧
    bracketed.source = "var x int is (var y int is 1 + 2);\nprintln(y);\n" ∧
    Program.parse "var x int is (var y int is 1 + 2);\nprintln(y);\n" = .ok unbracketed ∧
    (Checker.init.checkProgram unbracketed).2.hasErrors = false ∧
    ((Machine.init Buffer.empty).runProgram 1 bracketed).2.sink.text = "1\n" ∧
    ((Machine.init Buffer.empty).runProgram 1 unbracketed).2.sink.text = "3\n" := by
  have first : Program.parse "var x int is (var y int is 1) + 2; println(y);" =
      .ok bracketed := by
    with_unfolding_all rfl
  have second : Program.parse "var x int is (var y int is 1 + 2);\nprintln(y);\n" =
      .ok unbracketed := by
    with_unfolding_all rfl
  refine ⟨first, ?_, ?_, second, ?_, ?_, ?_⟩ <;> decide +kernel

end Unbracketed

end ExprLang
