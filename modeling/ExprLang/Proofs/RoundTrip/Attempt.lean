import ExprLang.Proofs.RoundTrip.Words

set_option autoImplicit false

/-!
Running the parser on known words. Each rule takes one step of a reading whose outcome is known and
leaves what is to be shown of the rest.
-/

namespace ExprLang.Parser

variable {α β : Type} {n : Nat}

/-- An attempt gives a good result, or trouble of the given sort. -/
def Yields (bad : Failure → Prop) (a : Attempt α) (good : α → Prop) : Prop :=
  match a with
  | .ok x => good x
  | .error failure => bad failure

theorem Yields.bind {bad : Failure → Prop} {a : Attempt α} {good : α → Prop} {f : α → Attempt β}
    {good' : β → Prop} (first : Yields bad a good) (rest : ∀ x, good x → Yields bad (f x) good') :
    Yields bad (a >>= f) good' := by
  cases a with
  | ok x => exact rest x first
  | error failure => exact first

/-- If there is a result, it is good. -/
abbrev Finds (a : Attempt α) (good : α → Prop) : Prop :=
  Yields (fun _ => True) a good

/-- Whatever comes first, only the result matters. -/
theorem finds_bind {a : Attempt α} {f : α → Attempt β} {good : β → Prop}
    (rest : ∀ x, a = .ok x → Finds (f x) good) : Finds (a >>= f) good := by
  cases a with
  | ok x => exact rest x rfl
  | error => trivial

theorem Finds.imp {a : Attempt α} {good good' : α → Prop} (h : Finds a good)
    (weaker : ∀ x, good x → good' x) : Finds a good' := by
  cases a with
  | ok x => exact weaker x h
  | error => trivial

/-- An attempt gives a good result and leaves the parser in the given state, or meets trouble of the
given sort. -/
def Leaves (bad : Failure → Prop) (a : Attempt (Parsed n α)) (good : α → Prop)
    (state : Parser → Prop) : Prop :=
  Yields bad a fun parsed => good parsed.value ∧ state parsed.parser

namespace Leaves

variable {bad : Failure → Prop} {a : Attempt (Parsed n α)} {good : α → Prop}
  {state : Parser → Prop}

theorem bind {f : Parsed n α → Attempt β} {good' : β → Prop} (first : Leaves bad a good state)
    (rest : ∀ value q h, good value → state q → Yields bad (f ⟨value, q, h⟩) good') :
    Yields bad (a >>= f) good' :=
  Yields.bind first fun ⟨value, q, h⟩ ⟨fine, left⟩ => rest value q h fine left

theorem imp {good' : α → Prop} (h : Leaves bad a good state)
    (weaker : ∀ value, good value → good' value) : Leaves bad a good' state := by
  cases a with
  | ok parsed => exact ⟨weaker _ h.1, h.2⟩
  | error failure => exact h

end Leaves

/-- The nesting was too deep. -/
def TooDeep (failure : Failure) : Prop :=
  failure.error.cause = .tooDeep

/-- The items that are left are the given words, with the end mark after them. -/
structure Holds (p : Parser) (words : List Word) : Prop where
  tokens : ∃ tokens : List Token,
    p.rest = tokens.map .ok ∧ tokens.map (Token.word p.source) = words
  eof : p.eof.kind = .eof

/-- Unless the nesting is too deep, reading gives a good result and leaves the given words. -/
abbrev Reads (a : Attempt (Parsed n α)) (good : α → Prop) (words : List Word) : Prop :=
  Leaves TooDeep a good (·.Holds words)

section Rest

variable {p : Parser} {rest : List Item} {token : Token}

theorem size_lt_of_rest {item : Item} (h : p.rest = item :: rest) :
    ({ p with rest } : Parser).size < p.size := by
  simp [size, h]

theorem peek_of_rest (h : p.rest = .ok token :: rest) : p.peek = .ok token := by
  rw [peek, h]

theorem peek_of_nil (h : p.rest = []) : p.peek = .ok p.eof := by
  rw [peek, h]

theorem next_of_rest (h : p.rest = .ok token :: rest) (atEnd : SyntaxError) :
    p.next atEnd = .ok ⟨token, { p with rest }, size_lt_of_rest h⟩ := by
  unfold next
  split
  next nil => rw [h] at nil; cases nil
  next trouble => rw [h] at trouble; cases trouble
  next found => rw [h] at found; cases found; rfl

theorem next_of_nil (h : p.rest = []) (atEnd : SyntaxError) :
    p.next atEnd = p.fail atEnd p.eof.span := by
  unfold next
  split
  next => rfl
  next trouble => rw [h] at trouble; cases trouble
  next found => rw [h] at found; cases found

theorem next_of_error {trouble : Located LexicalError} (h : p.rest = .error trouble :: rest)
    (atEnd : SyntaxError) :
    p.next atEnd = fail { p with rest } (.lexical trouble.cause) trouble.span := by
  unfold next
  split
  next nil => rw [h] at nil; cases nil
  next found => rw [h] at found; cases found; rfl
  next found => rw [h] at found; cases found

theorem takeIf_of_rest (h : p.rest = .ok token :: rest) (accept : Token → Option α) :
    p.takeIf? accept =
      .ok ((accept token).map fun value => ⟨value, { p with rest }, size_lt_of_rest h⟩) := by
  unfold takeIf?
  split
  next nil => rw [h] at nil; cases nil
  next trouble => rw [h] at trouble; cases trouble
  next found =>
    rw [h] at found
    cases found
    cases accept token <;> rfl

theorem takeIf_of_error {trouble : Located LexicalError} (h : p.rest = .error trouble :: rest)
    (accept : Token → Option α) :
    p.takeIf? accept = p.fail (.lexical trouble.cause) trouble.span := by
  unfold takeIf?
  split
  next nil => rw [h] at nil; cases nil
  next found => rw [h] at found; cases found; rfl
  next found => rw [h] at found; cases found

theorem takeIf_of_nil (h : p.rest = []) (accept : Token → Option α) :
    p.takeIf? accept = .ok none := by
  unfold takeIf?
  split
  next => rfl
  next trouble => rw [h] at trouble; cases trouble
  next found => rw [h] at found; cases found

end Rest

namespace Holds

variable {p : Parser} {words : List Word} {kind : TokenKind} {lexeme : String}

theorem descend (h : p.Holds words) : p.descend.Holds words :=
  ⟨h.tokens, h.eof⟩

theorem ascend (h : p.Holds words) : p.ascend.Holds words :=
  ⟨h.tokens, h.eof⟩

theorem first (h : p.Holds ((kind, lexeme) :: words)) :
    ∃ span rest, p.rest = .ok ⟨kind, span⟩ :: rest ∧ p.lexeme ⟨kind, span⟩ = lexeme ∧
      ({ p with rest } : Parser).Holds words := by
  obtain ⟨⟨tokens, here, spelled⟩, eof⟩ := h
  cases tokens with
  | nil => cases spelled
  | cons token tokens =>
    obtain ⟨same, others⟩ := List.cons.inj spelled
    obtain ⟨rfl, rfl⟩ := Prod.mk.inj same
    exact ⟨token.span, tokens.map .ok, here, rfl, ⟨tokens, rfl, others⟩, eof⟩

theorem rest_nil (h : p.Holds []) : p.rest = [] := by
  obtain ⟨tokens, here, spelled⟩ := h.tokens
  rw [here, List.map_eq_nil_iff.1 spelled, List.map_nil]

/-! One step on known words. -/

variable {bad : Failure → Prop} {good : β → Prop}

theorem peek_bind (h : p.Holds ((kind, lexeme) :: words)) {f : Token → Attempt β}
    (rest : ∀ span, Yields bad (f ⟨kind, span⟩) good) : Yields bad (p.peek >>= f) good := by
  obtain ⟨span, items, eq, _⟩ := h.first
  rw [peek_of_rest eq]
  exact rest span

/-- After the last word stands the end mark. -/
theorem peek_end_bind (h : p.Holds []) {f : Token → Attempt β}
    (rest : ∀ token : Token, token.kind = .eof → Yields bad (f token) good) :
    Yields bad (p.peek >>= f) good := by
  rw [peek_of_nil h.rest_nil]
  exact rest p.eof h.eof

/-- The next token, with its text. -/
theorem lexed_bind (h : p.Holds ((kind, lexeme) :: words)) {atEnd : SyntaxError}
    {f : Parsed p.size Token → Attempt β}
    (rest : ∀ span q shorter, p.lexeme ⟨kind, span⟩ = lexeme → q.Holds words →
      Yields bad (f ⟨⟨kind, span⟩, q, shorter⟩) good) :
    Yields bad (p.next atEnd >>= f) good := by
  obtain ⟨span, items, eq, spelled, left⟩ := h.first
  rw [next_of_rest eq]
  exact rest span _ _ spelled left

theorem next_bind (h : p.Holds ((kind, lexeme) :: words)) {atEnd : SyntaxError}
    {f : Parsed p.size Token → Attempt β}
    (rest : ∀ span q shorter, q.Holds words → Yields bad (f ⟨⟨kind, span⟩, q, shorter⟩) good) :
    Yields bad (p.next atEnd >>= f) good :=
  h.lexed_bind fun span q shorter _ left => rest span q shorter left

theorem expect_bind (h : p.Holds ((kind, lexeme) :: words)) {f : Parsed p.size Token → Attempt β}
    (rest : ∀ span q shorter, q.Holds words → Yields bad (f ⟨⟨kind, span⟩, q, shorter⟩) good) :
    Yields bad (p.expect kind >>= f) good := by
  unfold expect
  rw [bind_assoc]
  refine h.next_bind fun span q shorter left => ?_
  dsimp only
  rw [if_pos rfl]
  exact rest span q shorter left

theorem expectIdent_bind (h : p.Holds ((.ident, lexeme) :: words))
    {f : Parsed p.size Ident → Attempt β}
    (rest : ∀ span q shorter, q.Holds words →
      Yields bad (f ⟨⟨lexeme, span⟩, q, shorter⟩) good) :
    Yields bad (p.expectIdent >>= f) good := by
  unfold expectIdent expect
  rw [bind_assoc, bind_assoc]
  refine h.lexed_bind fun span q shorter spelled left => ?_
  dsimp only
  rw [if_pos rfl]
  have found := rest span q shorter left
  rw [← spelled] at found
  exact found

theorem takeIf_bind (h : p.Holds ((kind, lexeme) :: words)) {accept : Token → Option α}
    {value : Span → α} {f : Option (Parsed p.size α) → Attempt β}
    (accepts : ∀ span, accept ⟨kind, span⟩ = some (value span))
    (rest : ∀ span q shorter, q.Holds words →
      Yields bad (f (some ⟨value span, q, shorter⟩)) good) :
    Yields bad (p.takeIf? accept >>= f) good := by
  obtain ⟨span, items, eq, -, left⟩ := h.first
  rw [takeIf_of_rest eq, accepts]
  exact rest span _ _ left

theorem eat_bind (h : p.Holds ((kind, lexeme) :: words))
    {f : Option (Parsed p.size Token) → Attempt β}
    (rest : ∀ span q shorter, q.Holds words →
      Yields bad (f (some ⟨⟨kind, span⟩, q, shorter⟩)) good) :
    Yields bad (p.eat? kind >>= f) good :=
  h.takeIf_bind (fun _ => if_pos rfl) rest

/-- A token that is not accepted stays, and the end mark never is. -/
theorem leave_bind (h : p.Holds words) {accept : Token → Option α}
    {f : Option (Parsed p.size α) → Attempt β}
    (refuses : ∀ word ∈ words.head?, ∀ span, accept ⟨word.1, span⟩ = none)
    (rest : Yields bad (f none) good) : Yields bad (p.takeIf? accept >>= f) good := by
  have here : p.takeIf? accept = .ok none := by
    cases words with
    | nil => exact takeIf_of_nil h.rest_nil accept
    | cons word words =>
      obtain ⟨span, items, eq, _⟩ := h.first
      rw [takeIf_of_rest eq, refuses word rfl]
      rfl
  rw [here]
  exact rest

theorem pass_bind (h : p.Holds words) {f : Option (Parsed p.size Token) → Attempt β}
    (other : ∀ word ∈ words.head?, word.1 ≠ kind) (rest : Yields bad (f none) good) :
    Yields bad (p.eat? kind >>= f) good :=
  h.leave_bind (fun word here _ => if_neg (other word here)) rest

end Holds

end ExprLang.Parser
