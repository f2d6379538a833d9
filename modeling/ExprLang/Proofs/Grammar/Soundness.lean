import ExprLang.Proofs.Grammar.Phrases
import ExprLang.Proofs.Readings

set_option autoImplicit false

/-!
What is read is in the grammar: whenever the parser gives a result, the tokens that it has used up
are a phrase of the right category. The proof goes by induction on the rules by which the parser
has got there.
-/

namespace ExprLang

/-- The rows of kinds that a reading can use up. -/
def Reading.Allows : Reading → List TokenKind → Prop
  | .type _ => Derives .type
  | .statement _ => Derives .statement
  | .expression _ | .inner _ => Derives .expression
  | .block _ => Derives .block
  | .blockRest _ _ => BlockRest
  | .declaration _ => Derives .declaration
  | .declarations _ => Derives .declarations
  | .conditional _ _ => Derives .conditional
  -- A prefix operator takes in all that binds more tightly, so even an operand is a test.
  | .operation _ | .operand _ => Derives .test
  | .operationRest _ _ => Chain
  | .row closing _ _ => fun kinds => ∃ r, kinds = r ++ [closing] ∧ Derives .row r
  | .entries _ _ => fun kinds => ∃ r, kinds = r ++ [.symbol .rightTriangle] ∧ Derives .entries r
  | .program _ => Derives .program

namespace Parser

variable {α : Type} {n : Nat}

/-- From `p` to `q`, tokens of the given kinds are used up. -/
def Uses (p : Parser) (kinds : List TokenKind) (q : Parser) : Prop :=
  ∃ tokens : List Token, p.rest = tokens.map .ok ++ q.rest ∧ tokens.map (·.kind) = kinds

/-- From `p` to `q`, a row of tokens is used up whose kinds are of the given sort. -/
def Takes (p : Parser) (sort : List TokenKind → Prop) (q : Parser) : Prop :=
  ∃ kinds, p.Uses kinds q ∧ sort kinds

theorem Uses.refl (p : Parser) : p.Uses [] p :=
  ⟨[], rfl, rfl⟩

theorem Uses.trans {p q r : Parser} {kinds others : List TokenKind} (first : p.Uses kinds q)
    (second : q.Uses others r) : p.Uses (kinds ++ others) r := by
  obtain ⟨tokens, here, rfl⟩ := first
  obtain ⟨tokens', there, rfl⟩ := second
  refine ⟨tokens ++ tokens', ?_, List.map_append⟩
  rw [here, there, List.map_append, List.append_assoc]

theorem Passes.uses {p q : Parser} {kind : TokenKind} {token : Token}
    (h : p.Passes kind token q) : p.Uses [kind] q :=
  ⟨[token], h.first, congrArg (fun k => [k]) h.kind⟩

/-- A token before a row of tokens. -/
theorem Passes.cons {p q r : Parser} {kind : TokenKind} {token : Token} {kinds : List TokenKind}
    (first : p.Passes kind token q) (second : q.Uses kinds r) : p.Uses (kind :: kinds) r :=
  first.uses.trans second

theorem mem_binaryKinds_iff {kind : TokenKind} :
    kind ∈ binaryKinds ↔ (binaryOp? kind).isSome = true := by
  cases kind with
  | symbol s => cases s <;> decide
  | keyword k => cases k <;> decide
  | _ => decide

theorem mem_assignmentKinds_of_some {kind : TokenKind} {op : Option BinaryOp}
    (h : assignmentOp? kind = some op) : kind ∈ assignmentKinds := by
  unfold assignmentOp? at h
  split at h
  case h_7 => cases h
  all_goals decide

/-- What is used up for a reading is what the grammar allows for it. -/
theorem Reaches.takes {p q : Parser} {x : Reading} (h : p.Reaches x q) : p.Takes x.Allows q := by
  induction h with
  | noneType name | intType name | decType name | strType name | boolType name =>
    exact ⟨_, name.uses, .typeName (by decide)⟩
  | listType name opening _ closing ih =>
    obtain ⟨t, element, type⟩ := ih
    exact ⟨_, name.cons (opening.cons (element.trans closing.uses)), .listType type⟩
  | mapType name opening _ closing _ ih ih' =>
    obtain ⟨t, key, type⟩ := ih
    obtain ⟨u, value, type'⟩ := ih'
    exact ⟨_, name.cons (opening.cons (key.trans (closing.cons value))), .mapType type type'⟩
  | @exit _ _ kind _ word =>
    have known : .keyword kind.reserved ∈ exitKinds := by cases kind <;> decide
    exact ⟨_, word.uses, .exit known⟩
  | @exitWith _ _ _ kind _ _ word _ ih =>
    have known : .keyword kind.reserved ∈ exitKinds := by cases kind <;> decide
    obtain ⟨e, used, value⟩ := ih
    exact ⟨_, word.cons used, .exitWith known value⟩
  | evaluated _ ih =>
    obtain ⟨e, used, value⟩ := ih
    exact ⟨e, used, .evaluated value⟩
  | nested _ _ ih => exact ih
  | declared _ ih =>
    obtain ⟨d, used, declaration⟩ := ih
    exact ⟨d, used, .declared declaration⟩
  | assigned word target sign known _ ih =>
    obtain ⟨e, used, value⟩ := ih
    exact ⟨_, word.cons (target.cons (sign.cons used)),
      .assigned (.assignment (mem_assignmentKinds_of_some known) value)⟩
  | branched _ ih =>
    obtain ⟨e, used, branches⟩ := ih
    exact ⟨e, used, .branched branches⟩
  | looped word _ _ ih ih' =>
    obtain ⟨d, declared, vars⟩ := ih
    obtain ⟨b, used, body⟩ := ih'
    exact ⟨_, word.cons (declared.trans used), .looped (.loop vars body)⟩
  | grouped _ ih =>
    obtain ⟨b, used, body⟩ := ih
    exact ⟨b, used, .grouped body⟩
  | tested _ ih =>
    obtain ⟨t, used, test⟩ := ih
    exact ⟨t, used, .tested test⟩
  | block opening _ ih =>
    obtain ⟨r, used, rest⟩ := ih
    exact ⟨_, opening.cons used, derives_block_iff.2 ⟨r, rfl, rest⟩⟩
  | blockEnd closing => exact ⟨_, closing.uses, .close⟩
  | blockSkip semicolon _ ih =>
    obtain ⟨r, used, rest⟩ := ih
    exact ⟨_, semicolon.cons used, .skip rest⟩
  | blockLast _ closing ih =>
    obtain ⟨s, first, statement⟩ := ih
    exact ⟨_, first.trans closing.uses, .last statement⟩
  | blockMore _ semicolon _ ih ih' =>
    obtain ⟨s, first, statement⟩ := ih
    obtain ⟨r, used, rest⟩ := ih'
    exact ⟨_, first.trans (semicolon.cons used), .more statement rest⟩
  | @declaration _ _ _ _ _ _ binding _ _ _ _ _ word name _ sign _ ih ih' =>
    have known : .keyword binding.keyword ∈ bindingKinds := by cases binding <;> decide
    obtain ⟨t, typed, type⟩ := ih
    obtain ⟨e, used, value⟩ := ih'
    exact ⟨_, word.cons (name.cons (typed.trans (sign.cons used))),
      .declaration known type value⟩
  | lastDeclaration _ ih =>
    obtain ⟨d, used, declaration⟩ := ih
    exact ⟨d, used, .lastDeclaration declaration⟩
  | moreDeclarations _ comma _ ih ih' =>
    obtain ⟨d, first, declaration⟩ := ih
    obtain ⟨r, used, others⟩ := ih'
    exact ⟨_, first.trans (comma.cons used), .moreDeclarations declaration others⟩
  | only word _ then_ _ ih ih' =>
    obtain ⟨e, tested, condition⟩ := ih
    obtain ⟨b, used, body⟩ := ih'
    exact ⟨_, word.cons (tested.trans (then_.cons used)), .only condition body⟩
  | withElseIf word _ then_ _ else_ _ ih ih' ih'' =>
    obtain ⟨e, tested, condition⟩ := ih
    obtain ⟨b, guarded, body⟩ := ih'
    obtain ⟨o, used, next⟩ := ih''
    exact ⟨_, word.cons (tested.trans (then_.cons (guarded.trans (else_.cons used)))),
      .withElseIf condition body next⟩
  | withElse word _ then_ _ else_ _ ih ih' ih'' =>
    obtain ⟨e, tested, condition⟩ := ih
    obtain ⟨b, guarded, body⟩ := ih'
    obtain ⟨o, used, otherwise⟩ := ih''
    exact ⟨_, word.cons (tested.trans (then_.cons (guarded.trans (else_.cons used)))),
      .withElse condition body otherwise⟩
  | operation _ _ _ ih ih' =>
    obtain ⟨a, used, test⟩ := ih
    obtain ⟨c, joined, chain⟩ := ih'
    exact ⟨_, used.trans joined, test.extended chain⟩
  | operationEnd => exact ⟨_, .refl _, .nil⟩
  | operationMore sign known _ _ ih ih' =>
    obtain ⟨t, used, test⟩ := ih
    obtain ⟨c, joined, chain⟩ := ih'
    have known := mem_binaryKinds_iff.2 (Option.isSome_of_eq_some known)
    exact ⟨_, sign.cons (used.trans joined), .cons known (test.extended chain)⟩
  | int first | dec first | string first | true first | false first =>
    exact ⟨_, first.uses, .single (.plain (.literal (by decide)))⟩
  | name first => exact ⟨_, first.uses, .single (.plain .name)⟩
  | call first opening _ ih =>
    obtain ⟨_, used, r, rfl, row⟩ := ih
    exact ⟨_, first.cons (opening.cons used), .single (.plain (.call row))⟩
  | list opening _ ih =>
    obtain ⟨_, used, r, rfl, row⟩ := ih
    exact ⟨_, opening.cons used, .single (.plain (.list row))⟩
  | map opening _ ih =>
    obtain ⟨_, used, r, rfl, entries⟩ := ih
    exact ⟨_, opening.cons used, .single (.plain (.map entries))⟩
  | @unary _ _ _ op _ _ sign _ ih =>
    have known : op.word.1 ∈ unaryKinds := by cases op <;> decide
    obtain ⟨t, used, test⟩ := ih
    exact ⟨_, sign.cons used, .unaryTest known test⟩
  | bracket opening _ closing ih =>
    obtain ⟨e, used, inner⟩ := ih
    exact ⟨_, opening.cons (used.trans closing.uses), .single (.plain (.bracket inner))⟩
  | rowEnd last => exact ⟨_, last.uses, [], rfl, .noItem⟩
  | rowLast _ last ih =>
    obtain ⟨e, first, item⟩ := ih
    exact ⟨_, first.trans last.uses, e, rfl, .lastItem item⟩
  | rowMore _ comma _ ih ih' =>
    obtain ⟨e, first, item⟩ := ih
    obtain ⟨_, used, r, rfl, others⟩ := ih'
    refine ⟨_, first.trans (comma.cons used), _, ?_, .moreItems item others⟩
    rw [List.append_assoc, List.cons_append]
  | entriesEnd last => exact ⟨_, last.uses, [], rfl, .noEntry⟩
  | entriesLast _ colon _ last ih ih' =>
    obtain ⟨e, first, key⟩ := ih
    obtain ⟨f, second, value⟩ := ih'
    refine ⟨_, first.trans (colon.cons (second.trans last.uses)), _, ?_, .lastEntry key value⟩
    rw [List.append_assoc, List.cons_append]
  | entriesMore _ colon _ comma _ ih ih' ih'' =>
    obtain ⟨e, first, key⟩ := ih
    obtain ⟨f, second, value⟩ := ih'
    obtain ⟨_, used, r, rfl, others⟩ := ih''
    refine ⟨_, first.trans (colon.cons (second.trans (comma.cons used))), _, ?_,
      .moreEntries key value others⟩
    simp only [List.append_assoc, List.cons_append]
  | programEnd => exact ⟨_, .refl _, .emptyProgram⟩
  | programSkip semicolon _ ih =>
    obtain ⟨r, used, others⟩ := ih
    exact ⟨_, semicolon.cons used, .skipped others⟩
  | programMore _ semicolon _ ih ih' =>
    obtain ⟨s, first, statement⟩ := ih
    obtain ⟨r, used, others⟩ := ih'
    exact ⟨_, first.trans (semicolon.cons used), .executed statement others⟩

/-- No token that is left is the end mark. -/
def Unended (p : Parser) : Prop :=
  ∀ token : Token, .ok token ∈ p.rest → token.kind ≠ .eof

theorem Uses.unended {p q : Parser} {kinds : List TokenKind} (used : p.Uses kinds q)
    (unended : p.Unended) : q.Unended := by
  obtain ⟨tokens, here, _⟩ := used
  intro token inside
  refine unended token ?_
  rw [here]
  exact List.mem_append_right _ inside

theorem rest_of_peek {p : Parser} (unended : p.Unended) {token : Token} (h : p.peek = .ok token)
    (kind : token.kind = .eof) : p.rest = [] := by
  unfold peek at h
  split at h
  next nil => exact nil
  next first rest eq =>
    cases h
    refine absurd kind (unended _ ?_)
    rw [eq]
    exact List.mem_cons_self ..
  next => cases h

/-- After a program the end mark is seen. -/
theorem Reaches.ended {p q : Parser} {x : Reading} (h : p.Reaches x q) {statements : Program}
    (whole : x = .program statements) : ∃ token, q.peek = .ok token ∧ token.kind = .eof := by
  induction h generalizing statements with
  | programEnd seen kind => exact ⟨_, seen, kind⟩
  | programSkip _ _ ih => exact ih rfl
  | programMore _ _ _ _ ih => exact ih rfl
  | _ => cases whole

/-- A program is read up to the end. -/
theorem Reaches.program_takes {p q : Parser} {statements : Program}
    (h : p.Reaches (.program statements) q) (unended : p.Unended) :
    p.Takes (Derives .program) q ∧ q.rest = [] := by
  obtain ⟨kinds, used, program⟩ := h.takes
  obtain ⟨token, seen, kind⟩ := h.ended rfl
  exact ⟨⟨kinds, used, program⟩, rest_of_peek (used.unended unended) seen kind⟩

end Parser

end ExprLang
