import ExprLang.Proofs.Readings
import ExprLang.Proofs.Spans.Geometry

set_option autoImplicit false

/-!
Reading a tree keeps its spans in order. What is left to read always stands after what has been
read, so that the parts of each node, read one after the other, stand in a row. The proof goes by
induction on the rules by which the tree is read.
-/

namespace ExprLang

open Node (Row Sound)

namespace Parser

variable {source : String} {lo mid : Nat} {p q : Parser}

/-- What is left to read of the source stands in it, item after item, from the offset on or
later. -/
structure Ahead (text : String) (lo : Nat) (p : Parser) : Prop where
  source : p.source = text
  solid : ∀ item ∈ p.rest, item.span.Solid text
  ordered : p.rest.Pairwise fun a b => a.span.Precedes b.span
  after : ∀ item ∈ p.rest, lo ≤ item.span.start.toNat

/-- Reading has passed a span that starts at the offset or later. -/
structure Past (source : String) (lo : Nat) (s : Span) (q : Parser) : Prop where
  solid : s.Solid source
  after : lo ≤ s.start.toNat
  ahead : q.Ahead source s.stop.toNat

/-- Reading has passed a node. -/
structure Took (source : String) (lo : Nat) (node : Node) (q : Parser) : Prop where
  sound : node.Sound source
  past : Past source lo node.span q

/-- Reading has passed a row of nodes and the token that closes it. -/
structure TookRow (source : String) (lo : Nat) (nodes : List Node) (closing : Token)
    (q : Parser) : Prop where
  row : Row source lo nodes closing.span.start.toNat
  past : Past source lo closing.span q

/-! ### Tokens -/

namespace Ahead

theorem descend (here : p.Ahead source lo) : p.descend.Ahead source lo :=
  ⟨here.source, here.solid, here.ordered, here.after⟩

theorem ascend (here : p.Ahead source lo) : p.ascend.Ahead source lo :=
  ⟨here.source, here.solid, here.ordered, here.after⟩

theorem passes (here : p.Ahead source lo) {kind : TokenKind} {t : Token}
    (first : p.Passes kind t q) : Past source lo t.span q := by
  have inside : Except.ok t ∈ p.rest := by
    rw [first.first]
    exact List.mem_cons_self ..
  have later : ∀ item ∈ q.rest, item ∈ p.rest := by
    intro item among
    rw [first.first]
    exact List.mem_cons_of_mem _ among
  have same : q.source = p.source := by
    rw [first.same]
  have ordered := here.ordered
  rw [first.first, List.pairwise_cons] at ordered
  exact ⟨here.solid _ inside, here.after _ inside, same.trans here.source,
    fun item among => here.solid item (later item among), ordered.2, ordered.1⟩

end Ahead

/-! ### Nodes -/

namespace Past

variable {s t : Span}

theorem le (h : Past source lo s q) : lo ≤ s.stop.toNat := by
  have := h.after
  have := h.solid.nonempty
  omega

theorem mono (h : Past source lo s q) {lo' : Nat} (le : lo' ≤ lo) : Past source lo' s q :=
  { h with after := Nat.le_trans le h.after }

theorem merge (first : Past source lo s p) (last : Past source mid t q)
    (le : s.stop.toNat ≤ mid) :
    Past source lo (s.merge t) q ∧ (s.merge t).start.toNat = s.start.toNat ∧
      (s.merge t).stop.toNat = t.stop.toNat := by
  have precedes : s.Precedes t := Nat.le_trans le last.after
  obtain ⟨start, stop⟩ := Span.merge_of_precedes first.solid last.solid precedes
  have after := first.after
  have nonempty := first.solid.nonempty
  have further := last.solid.nonempty
  unfold Span.Precedes at precedes
  refine ⟨⟨⟨first.solid.inside.merge last.solid.inside, ?_⟩, ?_, ?_⟩, start, stop⟩
  · omega
  · omega
  · rw [stop]
    exact last.ahead

/-- A node with parts between the first thing that is read of it and the last. -/
theorem took (first : Past source lo s p) (last : Past source mid t q) (le : s.stop.toNat ≤ mid)
    {node : Node} (span : node.span = s.merge t)
    (row : Row source s.start.toNat node.parts t.stop.toNat) (unnamed : node.isIdent = false) :
    Took source lo node q := by
  obtain ⟨past, start, stop⟩ := first.merge last le
  rw [← span] at past start stop
  exact ⟨row.sound past.solid (Nat.le_of_eq start) (Nat.le_of_eq stop.symm) unnamed, past⟩

/-- A node whose parts, if it has any, fill it. -/
theorem fill {node : Node} (past : Past source lo node.span q)
    (row : Row source node.span.start.toNat node.parts node.span.stop.toNat)
    (unnamed : node.isIdent = false) : Took source lo node q :=
  ⟨row.sound past.solid (Nat.le_refl _) (Nat.le_refl _) unnamed, past⟩

theorem nil (past : Past source lo s q) : Row source s.start.toNat [] s.stop.toNat :=
  .nil past.solid.inside.ordered

end Past

/-- A name is spelled as it is in the source. -/
theorem Ahead.ident {token : Token} (here : p.Ahead source lo)
    (first : p.Passes .ident token q) :
    Took source lo (.ident ⟨p.lexeme token, token.span⟩) q := by
  have past := here.passes first
  refine ⟨.intro ⟨past.solid, ?_, fun _ => .nil, ?_⟩ ?_, past⟩
  · exact fun m direct => absurd direct List.not_mem_nil
  · rintro _ ⟨⟩
    obtain ⟨text, covered⟩ := past.solid.inside.exists_text
    show token.span.text? source = some (p.lexeme token)
    rw [lexeme, here.source, Token.lexeme, covered, Option.getD_some]
  · exact fun m direct => absurd direct List.not_mem_nil

namespace Took

variable {node : Node}

theorem le (h : Took source lo node q) : lo ≤ node.span.stop.toNat :=
  h.past.le

theorem ahead (h : Took source lo node q) : q.Ahead source node.span.stop.toNat :=
  h.past.ahead

theorem mono (h : Took source lo node q) {lo' : Nat} (le : lo' ≤ lo) : Took source lo' node q :=
  ⟨h.sound, h.past.mono le⟩

theorem ascend (h : Took source lo node q) : Took source lo node q.ascend :=
  ⟨h.sound, { h.past with ahead := h.ahead.ascend }⟩

theorem row (h : Took source lo node q) : Row source lo [node] node.span.stop.toNat :=
  .single h.sound h.past.after (Nat.le_refl _)

/-- A node that is all there is to another one. -/
theorem wrap (h : Took source lo node q) {outer : Node} (span : outer.span = node.span)
    (parts : outer.parts = [node]) (unnamed : outer.isIdent = false) :
    Took source lo outer q := by
  have past := h.past
  have row : Row source node.span.start.toNat outer.parts node.span.stop.toNat := by
    rw [parts]
    exact .single h.sound (Nat.le_refl _) (Nat.le_refl _)
  rw [← span] at past row
  exact past.fill row unnamed

/-- Brackets around an expression widen its span. -/
theorem withSpan {e : Expr} (h : Took source mid (.expr e) p) {s t : Span} {p' : Parser}
    (first : Past source lo s p') (le : s.stop.toNat ≤ mid)
    (last : Past source e.span.stop.toNat t q) :
    Took source lo (.expr (e.withSpan (s.merge t))) q := by
  obtain ⟨past, start, stop⟩ := first.merge last (Nat.le_trans le h.le)
  have nonempty := first.solid.nonempty
  have after : mid ≤ e.span.start.toNat := h.past.after
  have before := last.le
  have encloses : (s.merge t).Encloses e.span := ⟨by omega, by omega⟩
  rw [← e.span_withSpan (s.merge t)] at past encloses
  exact ⟨h.sound.widen (Node.parts_withSpan ..) (Node.isAssignment_withSpan ..) rfl past.solid
    encloses, past⟩

/-- A conditional as an expression. -/
theorem cond {branches : Conditional} {span : Span} (h : Took source lo (.link branches span) q) :
    Took source lo (.expr (.cond branches span)) q :=
  ⟨h.sound.widen rfl rfl rfl h.past.solid (.refl _), h.past⟩

/-- The value of an assignment, with the operation that it may stand for. -/
theorem assigned {target : Ident} {value : Expr} {p' : Parser}
    (left : Took source lo (.ident target) p') (le : target.span.stop.toNat ≤ mid)
    (right : Took source mid (.expr value) q) (op : Option BinaryOp) :
    Took source lo (.expr (assignedValue target op value)) q ∧
      (assignedValue target op value).span.stop.toNat = value.span.stop.toNat := by
  have name : Took source lo (.expr (.name target target.span)) p' := left.wrap rfl rfl rfl
  cases op with
  | none => exact ⟨right.mono (Nat.le_trans left.le le), rfl⟩
  | some op =>
    have row := Row.cons name.sound (Nat.le_refl _) (right.row.mono le (Nat.le_refl _))
    exact ⟨left.past.took right.past le rfl row rfl, (left.past.merge right.past le).2.2⟩

theorem assignment {keyword : Span} {target : Ident} {value : Expr} {p' p'' : Parser} {mid' : Nat}
    (first : Past source lo keyword p'') (le : keyword.stop.toNat ≤ mid)
    (left : Took source mid (.ident target) p') (le' : target.span.stop.toNat ≤ mid')
    (right : Took source mid' (.expr value) q) (op : Option BinaryOp) :
    Took source lo
      (.expr (.assign target (assignedValue target op value) (keyword.merge value.span))) q := by
  obtain ⟨written, same⟩ := left.assigned le' right op
  have between : mid ≤ target.span.stop.toNat := left.le
  obtain ⟨past, start, stop⟩ := first.merge right.past (by omega)
  have nonempty := first.solid.nonempty
  have after : mid ≤ target.span.start.toNat := left.past.after
  have after' : mid ≤ (assignedValue target op value).span.start.toNat := written.past.after
  have reach : mid' ≤ value.span.stop.toNat := right.le
  have start : (keyword.merge value.span).start.toNat = keyword.start.toNat := start
  have stop : (keyword.merge value.span).stop.toNat = value.span.stop.toNat := stop
  have outside : (keyword.merge value.span).Encloses target.span := ⟨by omega, by omega⟩
  have outside' : (keyword.merge value.span).Encloses (assignedValue target op value).span :=
    ⟨by omega, by omega⟩
  refine ⟨.intro ⟨past.solid, ?_, ?_, ?_⟩ ?_, past⟩
  · exact List.forall_mem_cons.2 ⟨outside, List.forall_mem_singleton.2 outside'⟩
  · rintro ⟨⟩
  · rintro _ ⟨⟩
  · exact List.forall_mem_cons.2 ⟨left.sound, List.forall_mem_singleton.2 written.sound⟩

end Took

namespace TookRow

variable {nodes : List Node} {closing : Token}

theorem nil (last : Past source lo closing.span q) : TookRow source lo [] closing q :=
  ⟨.nil last.after, last⟩

theorem mono (h : TookRow source lo nodes closing q) {lo' : Nat} (le : lo' ≤ lo) :
    TookRow source lo' nodes closing q :=
  ⟨h.row.mono le (Nat.le_refl _), h.past.mono le⟩

theorem cons {node : Node} (first : Took source lo node p)
    (rest : TookRow source node.span.stop.toNat nodes closing q) :
    TookRow source lo (node :: nodes) closing q :=
  ⟨.cons first.sound first.past.after rest.row, rest.past.mono first.le⟩

/-- A node that consists of a row, after an opening token, and of the token that closes it. -/
theorem took {s : Span} (rest : TookRow source s.stop.toNat nodes closing q)
    (first : Past source lo s p) {node : Node} (span : node.span = s.merge closing.span)
    (parts : node.parts = nodes) (unnamed : node.isIdent = false) : Took source lo node q := by
  have start := Nat.le_of_lt first.solid.nonempty
  have stop := Nat.le_of_lt rest.past.solid.nonempty
  have row := rest.row.mono start stop
  rw [← parts] at row
  exact first.took rest.past (Nat.le_refl _) span row unnamed

end TookRow

/-- What is read by a reading from `p` to `q` stands in the source where it should. -/
def Stands (source : String) (p q : Parser) : Reading → Prop
  | .type t => ∀ lo, p.Ahead source lo → Took source lo (.type t) q
  | .statement e | .expression e | .inner e | .operation e | .operand e =>
    ∀ lo, p.Ahead source lo → Took source lo (.expr e) q
  | .block b => ∀ lo, p.Ahead source lo → Took source lo (.block b) q
  | .blockRest statements closing =>
    ∀ lo, p.Ahead source lo → TookRow source lo (statements.map Node.expr) closing q
  | .declaration d => ∀ lo, p.Ahead source lo → Took source lo (.declaration d) q
  | .declarations ds => ∀ lo, p.Ahead source lo →
      ∃ hi, Row source lo (ds.map Node.declaration) hi ∧ q.Ahead source hi
  | .conditional c span => ∀ lo, p.Ahead source lo → Took source lo (.link c span) q
  | .operationRest lhs e =>
    ∀ lo, Took source lo (.expr lhs) p → Took source lo (.expr e) q
  | .row _ es token =>
    ∀ lo, p.Ahead source lo → TookRow source lo (es.map Node.expr) token q
  | .entries es token => ∀ lo, p.Ahead source lo →
      TookRow source lo (es.flatMap fun entry => [.expr entry.1, .expr entry.2]) token q
  | .program statements => ∀ lo, p.Ahead source lo →
      ∃ hi, Row source lo (statements.map Node.expr) hi

/-- A condition and the block that it guards. -/
theorem Took.branch {p₁ p₂ p₃ : Parser} {keyword then_ : Token} {condition : Expr} {body : Block}
    (first : Past source lo keyword.span p₁)
    (test : Took source keyword.span.stop.toNat (.expr condition) p₂)
    (guard : Past source condition.span.stop.toNat then_.span p₃)
    (yes : Took source then_.span.stop.toNat (.block body) q) :
    Took source lo (.link (.only condition body) (keyword.span.merge body.span)) q ∧
      (keyword.span.merge body.span).stop.toNat = body.span.stop.toNat ∧
      Row source (keyword.span.merge body.span).start.toNat [.expr condition, .block body]
        body.span.stop.toNat := by
  have nonempty := first.solid.nonempty
  have le := Nat.le_trans test.le guard.le
  have row := (test.row.append (yes.row.mono guard.le (Nat.le_refl _))).mono
    (Nat.le_of_lt nonempty) (Nat.le_refl _)
  obtain ⟨-, start, stop⟩ := first.merge yes.past le
  refine ⟨first.took yes.past le rfl row rfl, stop, ?_⟩
  exact row.mono (Nat.le_of_eq start) (Nat.le_refl _)

theorem Reaches.stands {x : Reading} (h : p.Reaches x q) : Stands source p q x := by
  induction h with
  | noneType name | intType name | decType name | strType name | boolType name =>
    intro lo here
    have first := here.passes name
    exact first.fill first.nil rfl
  | listType name second _ last ih =>
    intro lo here
    have first := here.passes name
    have opening := first.ahead.passes second
    have inner := ih _ opening.ahead
    have closing := inner.ahead.passes last
    have nonempty := first.solid.nonempty
    have h₁ := opening.le
    have h₂ := inner.le
    exact first.took closing (by omega) rfl (inner.row.mono (by omega) closing.le) rfl
  | mapType name second _ third _ ih ih' =>
    intro lo here
    have first := here.passes name
    have opening := first.ahead.passes second
    have left := ih _ opening.ahead
    have closing := left.ahead.passes third
    have right := ih' _ closing.ahead
    have nonempty := first.solid.nonempty
    have h₁ := opening.le
    have h₂ := left.le
    have h₃ := closing.le
    have row := (left.row.mono (Nat.le_refl _) h₃).append right.row
    exact first.took right.past (by omega) rfl (row.mono (by omega) (Nat.le_refl _)) rfl
  | exit word =>
    intro lo here
    have first := here.passes word
    exact first.fill first.nil rfl
  | exitWith word _ ih | unary word _ ih =>
    intro lo here
    have first := here.passes word
    have value := ih _ first.ahead
    have start := Nat.le_of_lt first.solid.nonempty
    exact first.took value.past (Nat.le_refl _) rfl (value.row.mono start (Nat.le_refl _)) rfl
  | evaluated _ ih | tested _ ih => exact ih
  | nested _ _ ih =>
    intro lo here
    exact (ih lo here.descend).ascend
  | declared _ ih | grouped _ ih =>
    intro lo here
    exact (ih lo here).wrap rfl rfl rfl
  | assigned word name sign _ _ ih =>
    intro lo here
    have first := here.passes word
    have left := first.ahead.ident name
    have operator := left.ahead.passes sign
    exact Took.assignment first (Nat.le_refl _) left operator.le (ih _ operator.ahead) _
  | branched _ ih =>
    intro lo here
    exact (ih lo here).cond
  | looped word _ _ ih ih' =>
    intro lo here
    have first := here.passes word
    obtain ⟨hi, row, left⟩ := ih _ first.ahead
    have found := ih' _ left
    have nonempty := first.solid.nonempty
    have le := row.le
    exact first.took found.past (by omega) rfl
      ((row.append found.row).mono (by omega) (Nat.le_refl _)) rfl
  | block opening _ ih =>
    intro lo here
    have first := here.passes opening
    exact (ih _ first.ahead).took first rfl rfl rfl
  | blockEnd last | rowEnd last | entriesEnd last =>
    intro lo here
    exact .nil (here.passes last)
  | blockSkip semicolon _ ih =>
    intro lo here
    have skipped := here.passes semicolon
    exact (ih _ skipped.ahead).mono skipped.le
  | blockLast _ last ih | rowLast _ last ih =>
    intro lo here
    have found := ih lo here
    exact .cons found (.nil (found.ahead.passes last))
  | blockMore _ passed _ ih ih' | rowMore _ passed _ ih ih' =>
    intro lo here
    have found := ih lo here
    have separator := found.ahead.passes passed
    exact .cons found ((ih' _ separator.ahead).mono separator.le)
  | declaration word named _ sign _ ih ih' =>
    intro lo here
    have first := here.passes word
    have name := first.ahead.ident named
    have type := ih _ name.ahead
    have is := type.ahead.passes sign
    have value := ih' _ is.ahead
    have nonempty := first.solid.nonempty
    have h₁ := name.le
    have h₂ := type.le
    have h₃ := is.le
    have row := (name.row.append type.row).append (value.row.mono is.le (Nat.le_refl _))
    exact first.took value.past (by omega) rfl (row.mono (by omega) (Nat.le_refl _)) rfl
  | lastDeclaration _ ih =>
    intro lo here
    have found := ih lo here
    exact ⟨_, found.row, found.ahead⟩
  | moreDeclarations _ passed _ ih ih' =>
    intro lo here
    have found := ih lo here
    have comma := found.ahead.passes passed
    obtain ⟨hi, row, left⟩ := ih' _ comma.ahead
    exact ⟨hi, found.row.append (row.mono comma.le (Nat.le_refl _)), left⟩
  | only word _ passed _ ih ih' =>
    intro lo here
    have first := here.passes word
    have test := ih _ first.ahead
    have guard := test.ahead.passes passed
    exact (Took.branch first test guard (ih' _ guard.ahead)).1
  | withElseIf word _ passed _ passed' _ ih ih' ih''
  | withElse word _ passed _ passed' _ ih ih' ih'' =>
    intro lo here
    have first := here.passes word
    have test := ih _ first.ahead
    have guard := test.ahead.passes passed
    have yes := ih' _ guard.ahead
    obtain ⟨short, stop, row⟩ := Took.branch first test guard yes
    have other := yes.ahead.passes passed'
    have next := ih'' _ other.ahead
    have le := Nat.le_trans (Nat.le_of_eq stop) other.le
    exact short.past.took next.past le rfl (row.append (next.row.mono other.le (Nat.le_refl _))) rfl
  | operation _ _ _ ih ih' =>
    intro lo here
    exact (ih' lo (ih lo here.descend)).ascend
  | operationEnd =>
    intro lo left
    exact left
  | operationMore sign _ _ _ ih ih' =>
    intro lo left
    have operator := left.ahead.passes sign
    have right := ih _ operator.ahead
    have row := Row.cons left.sound (Nat.le_refl _) (right.row.mono operator.le (Nat.le_refl _))
    exact ih' lo (left.past.took right.past operator.le rfl row rfl)
  | int first | dec first | string first | true first | false first =>
    intro lo here
    have past := here.passes first
    exact past.fill past.nil rfl
  | name first =>
    intro lo here
    exact (here.ident first).wrap rfl rfl rfl
  | call first second _ ih =>
    intro lo here
    have name := here.ident first
    have opening := name.ahead.passes second
    have arguments := ih _ opening.ahead
    have stop := Nat.le_of_lt arguments.past.solid.nonempty
    have row := Row.cons name.sound (Nat.le_refl _) (arguments.row.mono opening.le stop)
    exact name.past.took arguments.past opening.le rfl row rfl
  | list opening _ ih | map opening _ ih =>
    intro lo here
    have first := here.passes opening
    exact (ih _ first.ahead).took first rfl rfl rfl
  | bracket opening _ last ih =>
    intro lo here
    have first := here.passes opening
    have inside := ih _ first.ahead
    exact inside.withSpan first (Nat.le_refl _) (inside.ahead.passes last)
  | entriesLast _ sign _ last ih ih' =>
    intro lo here
    have left := ih lo here
    have colon := left.ahead.passes sign
    have right := (ih' _ colon.ahead).mono colon.le
    exact .cons left (.cons right (.nil (right.ahead.passes last)))
  | entriesMore _ sign _ passed _ ih ih' ih'' =>
    intro lo here
    have left := ih lo here
    have colon := left.ahead.passes sign
    have right := (ih' _ colon.ahead).mono colon.le
    have comma := right.ahead.passes passed
    exact .cons left (.cons right ((ih'' _ comma.ahead).mono comma.le))
  | programEnd =>
    intro lo here
    exact ⟨lo, .nil (Nat.le_refl _)⟩
  | programSkip semicolon _ ih =>
    intro lo here
    have skipped := here.passes semicolon
    obtain ⟨hi, row⟩ := ih _ skipped.ahead
    exact ⟨hi, row.mono skipped.le (Nat.le_refl _)⟩
  | programMore _ semicolon _ ih ih' =>
    intro lo here
    have found := ih lo here
    have passed := found.ahead.passes semicolon
    obtain ⟨hi, row⟩ := ih' _ passed.ahead
    exact ⟨hi, found.row.append (row.mono passed.le (Nat.le_refl _))⟩

end Parser

end ExprLang
