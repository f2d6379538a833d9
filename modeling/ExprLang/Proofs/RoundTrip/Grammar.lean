import ExprLang.Proofs.Readings

set_option autoImplicit false

/-!
What the parser gives is regular: names are names, numbers carry no sign, and an exit stands only
where a statement may. The proof goes by induction on the rules by which it is read.
-/

namespace ExprLang

/-- A regular expression that is not an exit. -/
def Expr.Valued (e : Expr) : Prop :=
  e.isExit = false ∧ e.Everywhere Regular

/-- A declaration of a name, with a regular expression for its value. -/
def Declaration.Regular (d : Declaration) : Prop :=
  IsName d.name.name ∧ d.value.Valued

namespace Expr

theorem isExit_withSpan (e : Expr) (s : Span) : (e.withSpan s).isExit = e.isExit := by
  cases e <;> rfl

theorem children_withSpan (e : Expr) (s : Span) : (e.withSpan s).children = e.children := by
  cases e <;> rfl

theorem Regular.withSpan {e : Expr} (regular : e.Regular) (s : Span) : (e.withSpan s).Regular := by
  cases e with
  | literal value span =>
    have unsigned := regular.unsigned value span rfl
    refine ⟨regular.names, regular.parts, ?_, nofun⟩
    rintro _ _ ⟨⟩
    exact unsigned
  | loop vars body span =>
    refine ⟨regular.names, regular.parts, nofun, ?_⟩
    rintro _ _ ⟨⟩
    exact regular.vars body span rfl
  | _ => exact ⟨regular.names, regular.parts, nofun, nofun⟩

theorem Valued.withSpan {e : Expr} (valued : e.Valued) (s : Span) : (e.withSpan s).Valued := by
  obtain ⟨notExit, everywhere⟩ := valued
  refine ⟨(isExit_withSpan e s).trans notExit, .intro (everywhere.self.withSpan s) ?_⟩
  rw [children_withSpan]
  exact fun x inside => everywhere.child inside

/-- An expression without blocks is regular if its parts are. -/
theorem everywhere_of_parts {e : Expr} (names : ∀ i ∈ e.names, IsName i.name)
    (parts : ∀ x ∈ e.children, x.Valued)
    (unsigned : ∀ value span, e = .literal value span → value.Unsigned)
    (vars : ∀ body span, e ≠ .loop [] body span) (same : e.parts = e.children) :
    e.Everywhere Regular := by
  refine .intro ⟨names, ?_, unsigned, vars⟩ fun x inside => (parts x inside).2
  rw [same]
  exact fun x inside => (parts x inside).1

theorem valued_literal {value : Literal} (span : Span) (unsigned : value.Unsigned) :
    (literal value span).Valued := by
  refine ⟨rfl, everywhere_of_parts nofun nofun ?_ nofun rfl⟩
  rintro _ _ ⟨⟩
  exact unsigned

end Expr

namespace Literal

theorem unsigned_of_int? {lexeme : String} {n : Int} (h : int? lexeme = some n) : 0 ≤ n := by
  simp only [int?] at h
  split at h
  · cases h
    exact Int.natCast_nonneg _
  · cases h

theorem unsigned_of_dec? {lexeme : String} {d : Decimal} (h : dec? lexeme = some d) :
    0 ≤ d.digits ∧ 0 < d.scale := by
  simp only [dec?] at h
  split at h
  next numeral =>
    cases h
    rw [Bool.and_eq_true] at numeral
    have follows := (isNumeral_iff.1 numeral.2).1
    exact ⟨Int.natCast_nonneg _, Int.natCast_pos.2 (List.length_pos_iff.2 follows)⟩
  next => cases h

end Literal

/-- What is read is regular. -/
def Reading.Regular : Reading → Prop
  | .type _ => True
  | .statement e => e.Everywhere Expr.Regular
  | .expression e | .inner e | .operation e | .operand e => e.Valued
  | .block b => ∀ s ∈ b.statements, s.Everywhere Expr.Regular
  | .blockRest statements _ => ∀ s ∈ statements, s.Everywhere Expr.Regular
  | .declaration d => d.Regular
  | .declarations ds => ds ≠ [] ∧ ∀ d ∈ ds, d.Regular
  | .conditional c _ => (∀ e ∈ c.conditions, e.isExit = false) ∧
      ∀ x ∈ c.children, x.Everywhere Expr.Regular
  | .operationRest lhs e => lhs.Valued → e.Valued
  | .row _ es _ => ∀ e ∈ es, e.Valued
  | .entries es _ => ∀ e ∈ es, e.1.Valued ∧ e.2.Valued
  | .program statements => ∀ s ∈ statements, s.Everywhere Expr.Regular

namespace Parser

/-- All identifiers that are left are names. -/
def Legal (p : Parser) : Prop :=
  ∀ token : Token, .ok token ∈ p.rest → token.kind = .ident → IsName (p.lexeme token)

theorem Legal.passes {p q : Parser} {kind : TokenKind} {token : Token} (legal : p.Legal)
    (first : p.Passes kind token q) : q.Legal := by
  intro t inside
  have later : .ok t ∈ p.rest := by
    rw [first.first]
    exact List.mem_cons_of_mem _ inside
  have named := legal t later
  rw [first.same]
  exact named

theorem Legal.name {p q : Parser} {token : Token} (legal : p.Legal)
    (first : p.Passes .ident token q) : IsName (p.lexeme token) := by
  refine legal token ?_ first.kind
  rw [first.first]
  exact List.mem_cons_self ..

theorem valued_name {ident : Ident} (named : IsName ident.name) (span : Span) :
    (Expr.name ident span).Valued :=
  ⟨rfl, Expr.everywhere_of_parts (List.forall_mem_singleton.2 named) nofun nofun nofun rfl⟩

theorem valued_binary {op : BinaryOp} {lhs rhs : Expr} (span : Span) (left : lhs.Valued)
    (right : rhs.Valued) : (Expr.binary op lhs rhs span).Valued :=
  ⟨rfl, Expr.everywhere_of_parts nofun
    (List.forall_mem_cons.2 ⟨left, List.forall_mem_singleton.2 right⟩) nofun nofun rfl⟩

theorem valued_assigned {target : Ident} (named : IsName target.name) (op : Option BinaryOp)
    {value : Expr} (valued : value.Valued) : (assignedValue target op value).Valued := by
  cases op with
  | none => exact valued
  | some op => exact valued_binary _ (valued_name named _) valued

/-- What is read from a text whose identifiers are names is regular, and the identifiers that are
left are names. -/
theorem Reaches.regular {p q : Parser} {x : Reading} (h : p.Reaches x q) (legal : p.Legal) :
    x.Regular ∧ q.Legal := by
  induction h with
  | noneType name | intType name | decType name | strType name | boolType name =>
    exact ⟨trivial, legal.passes name⟩
  | listType name opening _ closing ih =>
    obtain ⟨-, left⟩ := ih ((legal.passes name).passes opening)
    exact ⟨trivial, left.passes closing⟩
  | mapType name opening _ closing _ ih ih' =>
    obtain ⟨-, left⟩ := ih ((legal.passes name).passes opening)
    obtain ⟨-, left⟩ := ih' (left.passes closing)
    exact ⟨trivial, left⟩
  | exit word =>
    exact ⟨Expr.everywhere_of_parts nofun nofun nofun nofun rfl, legal.passes word⟩
  | exitWith word _ ih =>
    obtain ⟨valued, left⟩ := ih (legal.passes word)
    exact ⟨Expr.everywhere_of_parts nofun (List.forall_mem_singleton.2 valued) nofun nofun rfl,
      left⟩
  | evaluated _ ih =>
    obtain ⟨valued, left⟩ := ih legal
    exact ⟨valued.2, left⟩
  | nested _ _ ih => exact ih legal
  | declared _ ih =>
    obtain ⟨regular, left⟩ := ih legal
    exact ⟨⟨rfl, Expr.everywhere_of_parts (List.forall_mem_singleton.2 regular.1)
      (List.forall_mem_singleton.2 regular.2) nofun nofun rfl⟩, left⟩
  | assigned word target sign _ _ ih =>
    have legal := legal.passes word
    have named := legal.name target
    obtain ⟨valued, left⟩ := ih ((legal.passes target).passes sign)
    exact ⟨⟨rfl, Expr.everywhere_of_parts (List.forall_mem_singleton.2 named)
      (List.forall_mem_singleton.2 (valued_assigned named _ valued)) nofun nofun rfl⟩, left⟩
  | branched _ ih =>
    obtain ⟨regular, left⟩ := ih legal
    exact ⟨⟨rfl, .intro ⟨nofun, regular.1, nofun, nofun⟩ regular.2⟩, left⟩
  | looped word _ _ ih ih' =>
    obtain ⟨regular, left⟩ := ih (legal.passes word)
    obtain ⟨inBody, left⟩ := ih' left
    refine ⟨⟨rfl, .intro ⟨?_, ?_, nofun, ?_⟩ (List.forall_mem_append.2 ⟨?_, inBody⟩)⟩, left⟩
    · exact List.forall_mem_map.2 fun d inside => (regular.2 d inside).1
    · exact List.forall_mem_map.2 fun d inside => (regular.2 d inside).2.1
    · rintro _ _ ⟨⟩
      exact regular.1 rfl
    · exact List.forall_mem_map.2 fun d inside => (regular.2 d inside).2.2
  | grouped _ ih =>
    obtain ⟨regular, left⟩ := ih legal
    exact ⟨⟨rfl, .intro ⟨nofun, nofun, nofun, nofun⟩ regular⟩, left⟩
  | tested _ ih => exact ih legal
  | block opening _ ih => exact ih (legal.passes opening)
  | blockEnd closing => exact ⟨nofun, legal.passes closing⟩
  | blockSkip semicolon _ ih => exact ih (legal.passes semicolon)
  | blockLast _ closing ih =>
    obtain ⟨here, left⟩ := ih legal
    exact ⟨List.forall_mem_singleton.2 here, left.passes closing⟩
  | blockMore _ semicolon _ ih ih' =>
    obtain ⟨here, left⟩ := ih legal
    obtain ⟨others, left⟩ := ih' (left.passes semicolon)
    exact ⟨List.forall_mem_cons.2 ⟨here, others⟩, left⟩
  | declaration word name _ sign _ ih ih' =>
    have legal := legal.passes word
    obtain ⟨-, left⟩ := ih (legal.passes name)
    obtain ⟨valued, left⟩ := ih' (left.passes sign)
    exact ⟨⟨legal.name name, valued⟩, left⟩
  | lastDeclaration _ ih =>
    obtain ⟨here, left⟩ := ih legal
    exact ⟨⟨List.cons_ne_nil _ _, List.forall_mem_singleton.2 here⟩, left⟩
  | moreDeclarations _ comma _ ih ih' =>
    obtain ⟨here, left⟩ := ih legal
    obtain ⟨others, left⟩ := ih' (left.passes comma)
    exact ⟨⟨List.cons_ne_nil _ _, List.forall_mem_cons.2 ⟨here, others.2⟩⟩, left⟩
  | only word _ then_ _ ih ih' =>
    obtain ⟨valued, left⟩ := ih (legal.passes word)
    obtain ⟨inBody, left⟩ := ih' (left.passes then_)
    exact ⟨⟨List.forall_mem_singleton.2 valued.1, List.forall_mem_cons.2 ⟨valued.2, inBody⟩⟩, left⟩
  | withElseIf word _ then_ _ else_ _ ih ih' ih'' =>
    obtain ⟨valued, left⟩ := ih (legal.passes word)
    obtain ⟨inBody, left⟩ := ih' (left.passes then_)
    obtain ⟨next, left⟩ := ih'' (left.passes else_)
    exact ⟨⟨List.forall_mem_cons.2 ⟨valued.1, next.1⟩,
      List.forall_mem_cons.2 ⟨valued.2, List.forall_mem_append.2 ⟨inBody, next.2⟩⟩⟩, left⟩
  | withElse word _ then_ _ else_ _ ih ih' ih'' =>
    obtain ⟨valued, left⟩ := ih (legal.passes word)
    obtain ⟨inBody, left⟩ := ih' (left.passes then_)
    obtain ⟨inElse, left⟩ := ih'' (left.passes else_)
    exact ⟨⟨List.forall_mem_singleton.2 valued.1,
      List.forall_mem_cons.2 ⟨valued.2, List.forall_mem_append.2 ⟨inBody, inElse⟩⟩⟩, left⟩
  | operation _ _ _ ih ih' =>
    obtain ⟨first, left⟩ := ih legal
    obtain ⟨valued, left⟩ := ih' left
    exact ⟨valued first, left⟩
  | operationEnd => exact ⟨id, legal⟩
  | operationMore sign _ _ _ ih ih' =>
    obtain ⟨second, left⟩ := ih (legal.passes sign)
    obtain ⟨valued, left⟩ := ih' left
    exact ⟨fun first => valued (valued_binary _ first second), left⟩
  | int first value =>
    exact ⟨Expr.valued_literal _ (Literal.unsigned_of_int? value), legal.passes first⟩
  | dec first value =>
    exact ⟨Expr.valued_literal _ (Literal.unsigned_of_dec? value), legal.passes first⟩
  | string first | true first | false first =>
    exact ⟨Expr.valued_literal _ trivial, legal.passes first⟩
  | name first => exact ⟨valued_name (legal.name first) _, legal.passes first⟩
  | call first opening _ ih =>
    obtain ⟨valued, left⟩ := ih ((legal.passes first).passes opening)
    exact ⟨⟨rfl, Expr.everywhere_of_parts (List.forall_mem_singleton.2 (legal.name first)) valued
      nofun nofun rfl⟩, left⟩
  | list opening _ ih =>
    obtain ⟨valued, left⟩ := ih (legal.passes opening)
    exact ⟨⟨rfl, Expr.everywhere_of_parts nofun valued nofun nofun rfl⟩, left⟩
  | map opening _ ih =>
    obtain ⟨valued, left⟩ := ih (legal.passes opening)
    refine ⟨⟨rfl, Expr.everywhere_of_parts nofun ?_ nofun nofun rfl⟩, left⟩
    intro x inside
    obtain ⟨entry, here, part⟩ := List.mem_flatMap.1 inside
    have both := valued entry here
    exact List.forall_mem_cons.2 ⟨both.1, List.forall_mem_singleton.2 both.2⟩ x part
  | unary sign _ ih =>
    obtain ⟨valued, left⟩ := ih (legal.passes sign)
    exact ⟨⟨rfl, Expr.everywhere_of_parts nofun (List.forall_mem_singleton.2 valued) nofun nofun
      rfl⟩, left⟩
  | bracket opening _ closing ih =>
    obtain ⟨valued, left⟩ := ih (legal.passes opening)
    exact ⟨valued.withSpan _, left.passes closing⟩
  | rowEnd last => exact ⟨nofun, legal.passes last⟩
  | rowLast _ last ih =>
    obtain ⟨here, left⟩ := ih legal
    exact ⟨List.forall_mem_singleton.2 here, left.passes last⟩
  | rowMore _ comma _ ih ih' =>
    obtain ⟨here, left⟩ := ih legal
    obtain ⟨others, left⟩ := ih' (left.passes comma)
    exact ⟨List.forall_mem_cons.2 ⟨here, others⟩, left⟩
  | entriesEnd last => exact ⟨nofun, legal.passes last⟩
  | entriesLast _ colon _ last ih ih' =>
    obtain ⟨here, left⟩ := ih legal
    obtain ⟨there, left⟩ := ih' (left.passes colon)
    exact ⟨List.forall_mem_singleton.2 ⟨here, there⟩, left.passes last⟩
  | entriesMore _ colon _ comma _ ih ih' ih'' =>
    obtain ⟨here, left⟩ := ih legal
    obtain ⟨there, left⟩ := ih' (left.passes colon)
    obtain ⟨others, left⟩ := ih'' (left.passes comma)
    exact ⟨List.forall_mem_cons.2 ⟨⟨here, there⟩, others⟩, left⟩
  | programEnd => exact ⟨List.forall_mem_nil _, legal⟩
  | programSkip semicolon _ ih => exact ih (legal.passes semicolon)
  | programMore _ semicolon _ ih ih' =>
    obtain ⟨here, left⟩ := ih legal
    obtain ⟨others, left⟩ := ih' (left.passes semicolon)
    exact ⟨List.forall_mem_cons.2 ⟨here, others⟩, left⟩

end Parser

end ExprLang
