import ExprLang.Proofs.CheckerExits
import ExprLang.Proofs.CheckerRules
import ExprLang.Proofs.Complaints
import ExprLang.Proofs.EvalRules
import ExprLang.Proofs.Spans.Parsing
import ExprLang.Session

set_option autoImplicit false

/-!
Spans are faithful. In a program that has been read from a source, every node covers a stretch of
the source that encloses all that stands in the node; and whatever goes wrong, when the program is
read, checked or run, is laid to a stretch of the source too.
-/

namespace ExprLang

open Text

/-! ### Errors -/

/-- The second row of errors continues the first one, with errors at such places. -/
def Located.Adds {ε : Type} (Q : Span → Prop) (before after : Array (Located ε)) : Prop :=
  ∃ added : List (Located ε), after.toList = before.toList ++ added ∧ ∀ e ∈ added, Q e.span

namespace Located.Adds

variable {ε : Type} {Q : Span → Prop} {a b c : Array (Located ε)}

theorem refl (a : Array (Located ε)) : Adds Q a a :=
  ⟨[], (List.append_nil _).symm, fun _ inside => absurd inside List.not_mem_nil⟩

theorem trans (first : Adds Q a b) (second : Adds Q b c) : Adds Q a c := by
  obtain ⟨added, eq, places⟩ := first
  obtain ⟨more, eq', places'⟩ := second
  refine ⟨added ++ more, ?_, List.forall_mem_append.2 ⟨places, places'⟩⟩
  rw [eq', eq, List.append_assoc]

theorem push (a : Array (Located ε)) {e : Located ε} (place : Q e.span) : Adds Q a (a.push e) :=
  ⟨[e], Array.toList_push, List.forall_mem_singleton.2 place⟩

end Located.Adds

open Located (Adds)

namespace CheckM

variable {Q : Span → Prop}

theorem adds_notedIf (c : Checker) (reason : Prop) [Decidable reason] (cause : TypeError)
    {span : Span} (place : Q span) : Adds Q c.errors (c.notedIf reason cause span).errors := by
  unfold Checker.notedIf
  split
  · exact .push _ place
  · exact .refl _

theorem adds_recordExit (type : Ty) {span : Span} (place : Q span) (c : Checker) :
    Adds Q c.errors ((recordExit type span).run c).2.errors := by
  cases exits : c.exits with
  | nil =>
    rw [run_recordExit_top exits]
    exact .refl _
  | cons frame frames =>
    by_cases live : frame.unreachable = 0
    · cases seen : frame.type with
      | none =>
        rw [run_recordExit_first exits live seen]
        exact .refl _
      | some expected =>
        rw [run_recordExit_again exits live seen]
        exact adds_notedIf c _ _ place
    · rw [run_recordExit_unreachable exits live]
      exact .refl _

theorem adds_assign {target : Ident} (actual : Ty) (site : Unit → String) {span : Span}
    (name : Q target.span) (place : Q span) (c : Checker) :
    Adds Q c.errors ((assign target actual site span).run c).2.errors := by
  cases found : c.scopes.find? target.name with
  | none =>
    rw [run_assign_unbound found]
    exact .push _ name
  | some bound =>
    obtain ⟨entry, frame⟩ := bound
    rw [run_assign_bound found, Checker.errors_copying]
    exact (adds_notedIf c _ _ name).trans (adds_notedIf _ _ _ place)

/-- Checking lays complaints to the spans that it is given. -/
theorem rules_adds : Rules Q fun x => ∀ c, Adds Q c.errors (x.run c).2.errors where
  pure _ c := .refl c.errors
  bind first rest c := (first c).trans (rest _ _)
  report _ _ place c := .push c.errors place
  nested place h c := by
    rw [run_nested]
    split
    · exact .push c.errors place
    · exact h c.deeper
  consuming _ h c := h c.opened
  recordExit type _ place c := adds_recordExit type place c
  lookup place c := by
    rw [run_lookup]
    split
    · exact .refl c.errors
    · exact .push c.errors place
  assign actual site _ name place c := adds_assign actual site name place c
  setAside _ c := .refl c.errors
  rescope _ c := .refl c.errors
  leave c := by
    rw [errors_updateUnreachable]
    exact .refl c.errors
  block h c := by
    rw [(Block.check_inside _ c).2.1]
    exact h c.entered

end CheckM

namespace EvalM

variable {σ : Type} [Sink σ] {Q : Span → Prop}

/-- Evaluation lays trouble to the spans that it is given, also where it runs out of rounds. -/
theorem rules_adds : Rules Q fun x : EvalM σ _ => ∀ m, x.Ends m
    (fun _ m' => Adds Q m.errors m'.errors) fun m' => Adds Q m.errors m'.errors where
  pure _ m := .refl m.errors
  bind first rest m := by
    rw [ends_bind]
    refine (first m).mono ?_ fun _ added => added
    intro a m' added
    exact (rest a m').mono (fun _ _ => added.trans) fun _ => added.trans
  report _ _ place m := .push m.errors place
  write _ m := .refl m.errors
  nested place h m := by
    rw [ends_nested]
    split
    · exact .push m.errors place
    · exact h m.deeper
  inScope h m := by
    rw [ends_inScope]
    exact h m.entered
  outOfRounds m := .refl m.errors
  lookup place m := by
    rw [ends_lookup]
    split
    · exact .refl m.errors
    · exact .push m.errors place
  declare _ _ _ _ _ place m := by
    rw [ends_declare]
    split
    · exact .refl m.errors
    · exact .push m.errors place
  assign _ place m := by
    rw [ends_assign]
    split
    · exact .push m.errors place
    · split
      · exact .push m.errors place
      · split
        · exact .push m.errors place
        · exact .refl m.errors
  setAside _ m := .refl m.errors
  rescope _ m := .refl m.errors

end EvalM

/-- What holds however evaluation ends holds of the state that is left. -/
theorem Machine.outcome_of_ends {σ : Type} {node : EvalM σ (Control Value)} {m : Machine σ}
    {E : Machine σ → Prop} (h : node.Ends m (fun _ => E) E) : E (outcome node m).2 := by
  unfold EvalM.Ends at h
  unfold outcome
  cases ran : node.run m with
  | ok result m' =>
    rw [ran] at h
    exact h
  | error _ m' =>
    rw [ran] at h
    exact h

/-! ### Trees -/

namespace Node.Sound

variable {source : String}

theorem statement {body : Block} (h : (block body).Sound source) {s : Expr}
    (inside : s ∈ body.statements) : (expr s).Sound source :=
  h.part (List.mem_map_of_mem inside)

theorem value {d : Declaration} (h : (declaration d).Sound source) : (expr d.value).Sound source :=
  h.part (by simp [parts])

/-- The links of a conditional. -/
theorem link {branches : Conditional} {span : Span} (h : (link branches span).Sound source) :
    (∀ s ∈ branches.blamed span, s.Inside source) ∧
      ∀ x ∈ branches.children, (expr x).Sound source := by
  have whole : span.Inside source := h.fits.solid.inside
  cases branches with
  | only condition body =>
    have test : (expr condition).Sound source := h.part (by simp [parts, ofConditional])
    have yes : (block body).Sound source := h.part (by simp [parts, ofConditional])
    refine ⟨fun s inside => absurd inside List.not_mem_nil, ?_⟩
    exact List.forall_mem_cons.2 ⟨test, fun s inside => yes.statement inside⟩
  | withElse condition body otherwise =>
    have test : (expr condition).Sound source := h.part (by simp [parts, ofConditional])
    have yes : (block body).Sound source := h.part (by simp [parts, ofConditional])
    have no : (block otherwise).Sound source := h.part (by simp [parts, ofConditional])
    constructor
    · exact List.forall_mem_singleton.2 (Span.Inside.merge no.fits.solid.inside whole)
    · refine List.forall_mem_cons.2 ⟨test, List.forall_mem_append.2 ⟨?_, ?_⟩⟩
      · exact fun s inside => yes.statement inside
      · exact fun s inside => no.statement inside
  | withElseIf condition body next nextSpan =>
    have test : (expr condition).Sound source := h.part (by simp [parts, ofConditional])
    have yes : (block body).Sound source := h.part (by simp [parts, ofConditional])
    have other : (Node.link next nextSpan).Sound source := h.part (by simp [parts, ofConditional])
    obtain ⟨places, children⟩ := other.link
    constructor
    · exact List.forall_mem_cons.2 ⟨Span.Inside.merge other.fits.solid.inside whole, places⟩
    · refine List.forall_mem_cons.2 ⟨test, List.forall_mem_append.2 ⟨?_, children⟩⟩
      exact fun s inside => yes.statement inside

/-- A conditional as its first link. -/
theorem asLink {branches : Conditional} {span : Span}
    (h : (expr (.cond branches span)).Sound source) : (Node.link branches span).Sound source :=
  h.widen rfl rfl rfl h.fits.solid (.refl _)

theorem child {e x : Expr} (h : (expr e).Sound source) (inside : x ∈ e.children) :
    (expr x).Sound source := by
  cases e with
  | literal | name => cases inside
  | list items => exact h.part (List.mem_map_of_mem inside)
  | map entries =>
    obtain ⟨entry, among, here⟩ := List.mem_flatMap.1 inside
    have part : expr x ∈ [expr entry.1, expr entry.2] := List.mem_map_of_mem here
    exact h.part (List.mem_flatMap.2 ⟨entry, among, part⟩)
  | unary | binary | exit => exact h.part (List.mem_map_of_mem inside)
  | assign | call => exact h.part (List.mem_cons_of_mem _ (List.mem_map_of_mem inside))
  | declare d =>
    obtain rfl := List.mem_singleton.1 inside
    exact (h.part (List.mem_singleton_self _)).value
  | block body => exact (h.part (List.mem_singleton_self _)).statement inside
  | cond branches span => exact (h.asLink).link.2 x inside
  | loop vars body =>
    rcases List.mem_append.1 inside with among | among
    · obtain ⟨d, declared, rfl⟩ := List.mem_map.1 among
      exact (h.part (List.mem_append_left _ (List.mem_map_of_mem declared))).value
    · exact (h.part (List.mem_append_right _ (List.mem_singleton_self _))).statement among

/-- Complaints about an expression and all that stands in it are laid to places in the source. -/
theorem blames {e : Expr} (h : (expr e).Sound source) : e.Blames (Span.Inside source) := by
  induction e using Expr.childInduction with
  | step e ih =>
  refine .intro ?_ fun x inside => ih x inside (h.child inside)
  have place : e.span.Inside source := h.fits.solid.inside
  cases e with
  | name name =>
    have part : (ident name).Sound source := h.part (List.mem_singleton_self _)
    exact List.forall_mem_cons.2 ⟨place, List.forall_mem_singleton.2 part.fits.solid.inside⟩
  | assign target | call callee =>
    have part := (h.part (List.mem_cons_self ..)).fits.solid.inside
    exact List.forall_mem_cons.2 ⟨place, List.forall_mem_singleton.2 part⟩
  | cond branches span => exact List.forall_mem_cons.2 ⟨place, h.asLink.link.1⟩
  | _ => exact List.forall_mem_singleton.2 place

end Node.Sound

/-- The node stands in the program. -/
def Program.Has (p : Program) (n : Node) : Prop :=
  ∃ s ∈ p, n = .expr s ∨ (Node.expr s).Has n

/-- A node as the source has it: it covers some of the source and encloses all that stands in it,
its parts stand side by side in the order of the source, and a name is spelled as it is there. -/
structure Node.Faithful (source : String) (n : Node) : Prop where
  solid : n.span.Solid source
  encloses : ∀ d, n.Has d → n.span.Encloses d.span
  ordered : n.isAssignment = false → n.parts.Pairwise fun a b => a.span.Precedes b.span
  named : ∀ name, n = .ident name → name.span.text? source = some name.name

theorem Node.Sound.faithful {source : String} {n : Node} (h : n.Sound source) :
    n.Faithful source :=
  ⟨h.fits.solid, fun _ inside => (h.has inside).2, h.fits.ordered, h.fits.named⟩

section Source

variable {source : String} (small : source.utf8ByteSize < UInt32.size)

include small

theorem Program.row_of_parse {p : Program} (parsed : Program.parse source = .ok p) :
    ∃ hi, Node.Row source 0 (p.map Node.expr) hi := by
  obtain ⟨solid, ordered⟩ := Cursor.solid_items small (Cursor.stands_ofSource source)
  have ahead : (Parser.ofSource source).Ahead source 0 :=
    ⟨rfl, fun item inside => (solid item inside).1, ordered, fun _ _ => Nat.zero_le _⟩
  obtain ⟨q, reaches⟩ := Program.reaches_of_parse parsed
  exact reaches.stands 0 ahead

theorem SyntaxError.Laid.inside {error : Located SyntaxError} (h : SyntaxError.Laid source error) :
    error.span.Inside source := by
  have solid := (Cursor.solid_items small (Cursor.stands_ofSource source)).1
  cases h with
  | scan inside | literal inside => exact (solid _ inside).1.inside
  | @token t cause known _ =>
    rcases known with inside | rfl
    · exact (solid _ inside).1.inside
    · have start : (Token.endOfText source.utf8ByteSize).span.start.toNat = source.utf8ByteSize :=
        Span.toNat_start_ofRange small
      have stop : (Token.endOfText source.utf8ByteSize).span.stop.toNat = source.utf8ByteSize :=
        Span.toNat_stop_ofRange (Nat.le_refl _) small
      have last : Boundary source source.utf8ByteSize :=
        ⟨source.toList, [], (List.append_nil _).symm, byteSize_toList source⟩
      refine ⟨?_, ?_, ?_⟩
      · rw [start]
        exact last
      · rw [stop]
        exact last
      · exact Nat.le_of_eq (start.trans stop.symm)

end Source

/-- The spans of a source that is short enough for its offsets. In the program that is read from it,
every node is as the source has it, and the statements follow each other; checking the program and
running it lay errors to places in the source only, whatever has been checked and run before. If no
program can be read, then the error is laid to a place in the source. -/
theorem spans_are_faithful (source : String) (small : source.utf8ByteSize < UInt32.size) :
    (∀ p, Program.parse source = .ok p →
      (∀ n, p.Has n → n.Faithful source) ∧
      (p.Pairwise fun a b => a.span.Precedes b.span) ∧
      (∀ c : Checker, Adds (Span.Inside source) c.errors (c.checkProgram p).2.errors) ∧
      ∀ (σ : Type) [Sink σ] (rounds : Nat) (m : Machine σ),
        Adds (Span.Inside source) m.errors (m.runProgram rounds p).2.errors) ∧
    ∀ error, Program.parse source = .error error → error.span.Inside source := by
  constructor
  · intro p parsed
    obtain ⟨hi, row⟩ := Program.row_of_parse small parsed
    have sound : ∀ s ∈ p, (Node.expr s).Sound source :=
      fun s inside => (row.of_mem (List.mem_map_of_mem inside)).1
    have blames : ∀ s ∈ p, s.Blames (Span.Inside source) :=
      fun s inside => (sound s inside).blames
    have ordered := row.pairwise
    rw [List.pairwise_map] at ordered
    refine ⟨?_, ordered, ?_, ?_⟩
    · rintro n ⟨s, inside, rfl | deeper⟩
      · exact (sound s inside).faithful
      · exact ((sound s inside).has deeper).1.faithful
    · exact fun c => Program.obeys_check CheckM.rules_adds blames c
    · intro σ _ rounds m
      exact Machine.outcome_of_ends (Program.obeys_eval EvalM.rules_adds blames m)
  · intro error failed
    exact (Program.laid_of_parse failed).inside small

/-- What `set x += (1);` is read as. -/
def addToX : Program :=
  [.assign ⟨"x", ⟨4, 1⟩⟩
    (.binary .add (.name ⟨"x", ⟨4, 1⟩⟩ ⟨4, 1⟩) (.literal (.int 1) ⟨9, 3⟩) ⟨4, 8⟩) ⟨0, 12⟩]

theorem spans_of_addToX_are_faithful :
    "set x += (1);".utf8ByteSize < UInt32.size ∧ Program.parse "set x += (1);" = .ok addToX ∧
    (∀ n, addToX.Has n → n.Faithful "set x += (1);") ∧
    Adds (Span.Inside "set x += (1);") Checker.init.errors
      (Checker.init.checkProgram addToX).2.errors := by
  have small : "set x += (1);".utf8ByteSize < UInt32.size := by decide
  have parsed : Program.parse "set x += (1);" = .ok addToX := by with_unfolding_all rfl
  obtain ⟨nodes, -, checked, -⟩ := (spans_are_faithful _ small).1 addToX parsed
  exact ⟨small, parsed, nodes, checked .init⟩

end ExprLang
