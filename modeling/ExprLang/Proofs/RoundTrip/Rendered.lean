import ExprLang.Proofs.RoundTrip.Words

set_option autoImplicit false

/-!
The source of a syntax tree is cut into the words of the tree. Every piece of text that is written
between names and literals keeps them apart.
-/

namespace ExprLang

theorem toList_indent (depth : Nat) : (indent depth).toList = List.replicate (4 * depth) ' ' := by
  unfold indent String.pushn
  induction 4 * depth with
  | zero => rfl
  | succ n ih => rw [Nat.repeat, String.toList_push, ih, List.replicate_succ']

namespace Lexes

variable {cs : List Char} {words : List Word}

theorem blanks {front : List Char} (all : ∀ c ∈ front, Text.isBlank c = true)
    (h : Lexes cs words) : Lexes (front ++ cs) words := by
  induction front with
  | nil => exact h
  | cons c front ih =>
    have first := all c (List.mem_cons_self ..)
    exact blank first (ih fun d inside => all d (List.mem_cons_of_mem _ inside))

theorem space (h : Lexes cs words) : Lexes (" ".toList ++ cs) words :=
  blanks (List.all_eq_true.1 (by decide)) h

theorem indented (depth : Nat) (h : Lexes cs words) :
    Lexes ((indent depth).toList ++ cs) words := by
  refine blanks ?_ h
  intro c inside
  rw [toList_indent] at inside
  rw [(List.mem_replicate.1 inside).2]
  decide

theorem Separated.of_front {c : Char} (here : c.isAlpha = false ∧ c.isDigit = false ∧ c ≠ '.')
    (cs : List Char) : Separated (c :: cs) := by
  rintro d ⟨⟩
  exact here

theorem Separated.of_text (text : String)
    (front : text.toList.head?.any (fun c => !c.isAlpha && !c.isDigit && c != '.') = true)
    (cs : List Char) : Separated (text.toList ++ cs) := by
  obtain ⟨c, first, here⟩ := (Option.any_eq_true ..).1 front
  obtain ⟨rest, eq⟩ := List.head?_eq_some_iff.1 first
  rw [eq]
  exact .of_front (by simpa [and_assoc] using here) _

/-- A symbol that nothing extends. -/
theorem closed (s : Symbol) (final : s.extensions = []) (h : Lexes cs words) :
    Lexes (s.spelling.toList ++ cs) (s.word :: words) := by
  refine symbol s ?_ h
  rw [final]
  exact fun _ _ => List.not_mem_nil

/-- A symbol and a blank after it. -/
theorem symbol_blank (text : String) (s : Symbol) (c : Char) (blank : Text.isBlank c = true)
    (spelled : text.toList = s.spelling.toList ++ [c]) (h : Lexes cs words) :
    Lexes (text.toList ++ cs) (s.word :: words) := by
  rw [spelled, List.append_assoc]
  refine symbol s ?_ (Lexes.blank blank h)
  rintro d ⟨⟩ inside
  have visible : s.extensions.all (!Text.isBlank ·) = true := by
    cases s <;> decide
  have shown := List.all_eq_true.1 visible c inside
  rw [blank] at shown
  cases shown

/-- A keyword and an opening bracket right after it. -/
theorem keyword_bracket (text : String) (k : Keyword)
    (spelled : text.toList = k.spelling.toList ++ ['['])
    (h : Lexes cs words) :
    Lexes (text.toList ++ cs) (k.word :: Symbol.leftBracket.word :: words) := by
  rw [spelled, List.append_assoc]
  exact keyword k (.of_front (by decide) _) (closed .leftBracket rfl h)

/-- A keyword and a space after it. -/
theorem keyword_space (text : String) (k : Keyword)
    (spelled : text.toList = k.spelling.toList ++ [' ']) (h : Lexes cs words) :
    Lexes (text.toList ++ cs) (k.word :: words) := by
  rw [spelled, List.append_assoc]
  exact keyword k (.of_front (by decide) _) (blank rfl h)

theorem space_symbol_space (text : String) (s : Symbol)
    (spelled : text.toList = ' ' :: (s.spelling.toList ++ [' '])) (h : Lexes cs words) :
    Lexes (text.toList ++ cs) (s.word :: words) := by
  rw [spelled, List.cons_append, ← String.toList_ofList (l := s.spelling.toList ++ [' '])]
  exact blank rfl (symbol_blank _ s ' ' rfl (String.toList_ofList ..) h)

theorem space_keyword_space (text : String) (k : Keyword)
    (spelled : text.toList = ' ' :: (k.spelling.toList ++ [' '])) (h : Lexes cs words) :
    Lexes (text.toList ++ cs) (k.word :: words) := by
  rw [spelled, List.cons_append, ← String.toList_ofList (l := k.spelling.toList ++ [' '])]
  exact blank rfl (keyword_space _ k (String.toList_ofList ..) h)

/-- A text that starts with an equals sign starts with that token. -/
theorem head_ne_equals (h : Lexes cs words)
    (other : ∀ w ∈ words.head?, w.1 ≠ .symbol .equal) : '=' ∉ cs.head? := by
  intro first
  obtain ⟨rest, rfl⟩ := List.head?_eq_some_iff.1 first
  exact other _ (head?_of_symbol .equal rfl h) rfl

end Lexes

/-- The operator between two operands is one word, and keeps them apart. -/
theorem BinaryOp.lexes (op : BinaryOp) {cs : List Char} {ws : List Word} (h : Lexes cs ws) :
    Lexes (op.between.toList ++ cs) (op.word :: ws) := by
  cases op with
  | add => exact .space_symbol_space _ .plus (by decide) h
  | subtract => exact .space_symbol_space _ .minus (by decide) h
  | multiply => exact .space_symbol_space _ .star (by decide) h
  | divide => exact .space_symbol_space _ .slash (by decide) h
  | modulo => exact .space_symbol_space _ .percent (by decide) h
  | equal => exact .space_symbol_space _ .equal (by decide) h
  | greater => exact .space_symbol_space _ .greater (by decide) h
  | less => exact .space_symbol_space _ .less (by decide) h
  | greaterEqual => exact .space_symbol_space _ .greaterEqual (by decide) h
  | lessEqual => exact .space_symbol_space _ .lessEqual (by decide) h
  | and => exact .space_keyword_space _ .and (by decide) h
  | or => exact .space_keyword_space _ .or (by decide) h
  | index => exact .closed .underscore rfl h

theorem BinaryOp.separated (op : BinaryOp) (cs : List Char) :
    Lexes.Separated (op.between.toList ++ cs) :=
  .of_text _ (by cases op <;> decide) cs

theorem UnaryOp.lexes (op : UnaryOp) {cs : List Char} {ws : List Word}
    (other : ∀ w ∈ ws.head?, w.1 ≠ .symbol .equal) (h : Lexes cs ws) :
    Lexes (op.before.toList ++ cs) (op.word :: ws) := by
  cases op with
  | minus =>
    refine .symbol .minus ?_ h
    intro c first inside
    obtain rfl := List.mem_singleton.1 inside
    exact h.head_ne_equals other first
  | not => exact .keyword_space _ .not (by decide) h

theorem TypeExpr.lexes (t : TypeExpr) {cs : List Char} {ws : List Word}
    (apart : Lexes.Separated cs) (h : Lexes cs ws) :
    Lexes (t.source.toList ++ cs) (t.words ws) := by
  induction t generalizing cs ws with
  | none => exact .keyword .none apart h
  | int => exact .keyword .int apart h
  | dec => exact .keyword .dec apart h
  | str => exact .keyword .str apart h
  | bool => exact .keyword .bool apart h
  | list element span ih =>
    have close := Lexes.closed .rightBracket rfl h
    have inside := ih (.of_text "]" (by decide) cs) close
    rw [source, words, String.toList_append, String.toList_append, List.append_assoc,
      List.append_assoc]
    exact .keyword_bracket _ .list (by decide) inside
  | map key value span ihKey ihValue =>
    have close := Lexes.closed .rightBracket rfl (ihValue apart h)
    have inside := ihKey (.of_text "]" (by decide) _) close
    rw [source, words, String.toList_append, String.toList_append, String.toList_append,
      List.append_assoc, List.append_assoc, List.append_assoc]
    exact .keyword_bracket _ .map (by decide) inside

/-- Before a text that is kept apart from it, the source of an expression is cut into its words. -/
def Expr.Rendered (e : Expr) : Prop :=
  ∀ (depth : Nat) {cs : List Char} {ws : List Word}, Lexes.Separated cs → Lexes cs ws →
    Lexes ((e.sourceAt depth).toList ++ cs) (e.words ws)

section Rows

variable {cs : List Char} {ws : List Word}

theorem Expr.rendered_all {items : List Expr} (all : ∀ x ∈ items, x.Rendered) (depth : Nat)
    (apart : Lexes.Separated cs) (h : Lexes cs ws) :
    Lexes ((sourceAll depth items).toList ++ cs) (wordsAll items ws) := by
  induction items with
  | nil => exact h
  | cons e es ih =>
    have first := all e (List.mem_cons_self ..)
    have others := ih fun x inside => all x (List.mem_cons_of_mem _ inside)
    cases es with
    | nil => exact first depth apart h
    | cons e' es =>
      have comma := Lexes.symbol_blank ", " .comma ' ' rfl (by decide) others
      rw [sourceAll, wordsAll, String.toList_append, String.toList_append, List.append_assoc,
        List.append_assoc]
      · exact first depth (.of_text _ (by decide) _) comma
      · nofun
      · nofun

theorem Expr.rendered_entries {entries : List (Expr × Expr)}
    (all : ∀ x ∈ entries, x.1.Rendered ∧ x.2.Rendered) (depth : Nat)
    (apart : Lexes.Separated cs) (h : Lexes cs ws) :
    Lexes ((sourceEntries depth entries).toList ++ cs) (wordsEntries entries ws) := by
  induction entries with
  | nil => exact h
  | cons entry es ih =>
    obtain ⟨key, value⟩ := entry
    obtain ⟨first, second⟩ := all (key, value) (List.mem_cons_self ..)
    have others := ih fun x inside => all x (List.mem_cons_of_mem _ inside)
    cases es with
    | nil =>
      have colon := Lexes.symbol_blank ": " .colon ' ' rfl (by decide)
        (second depth apart h)
      rw [sourceEntries, wordsEntries, String.toList_append, String.toList_append,
        List.append_assoc, List.append_assoc]
      exact first depth (.of_text _ (by decide) _) colon
    | cons e' es =>
      have comma := Lexes.symbol_blank ", " .comma ' ' rfl (by decide) others
      have colon := Lexes.symbol_blank ": " .colon ' ' rfl (by decide)
        (second depth (.of_text _ (by decide) _) comma)
      rw [sourceEntries, wordsEntries]
      · simp only [String.toList_append, List.append_assoc]
        exact first depth (.of_text _ (by decide) _) colon
      · nofun
      · nofun

theorem Declaration.rendered {d : Declaration} (proper : IsName d.name.name)
    (value : d.value.Rendered) (depth : Nat) (apart : Lexes.Separated cs) (h : Lexes cs ws) :
    Lexes ((d.sourceAt depth).toList ++ cs) (d.words ws) := by
  obtain ⟨binding, name, type, init, span⟩ := d
  have is := Lexes.space_keyword_space " is " .is (by decide) (value depth apart h)
  have typed := type.lexes (.of_text _ (by decide) _) is
  have named := Lexes.name proper (.of_text " " (by decide) _) (.space typed)
  rw [sourceAt, words]
  simp only [String.toList_append, List.append_assoc]
  cases binding with
  | var => exact .keyword .var (.of_text _ (by decide) _) (.space named)
  | const => exact .keyword .const (.of_text _ (by decide) _) (.space named)

theorem Declaration.rendered_all {ds : List Declaration}
    (all : ∀ d ∈ ds, IsName d.name.name ∧ d.value.Rendered) (depth : Nat)
    (apart : Lexes.Separated cs) (h : Lexes cs ws) :
    Lexes ((sourceAll depth ds).toList ++ cs) (wordsAll ds ws) := by
  induction ds with
  | nil => exact h
  | cons d ds ih =>
    obtain ⟨proper, value⟩ := all d (List.mem_cons_self ..)
    have others := ih fun x inside => all x (List.mem_cons_of_mem _ inside)
    cases ds with
    | nil => exact rendered proper value depth apart h
    | cons d' ds =>
      have comma := Lexes.symbol_blank ", " .comma ' ' rfl (by decide) others
      rw [sourceAll, wordsAll, String.toList_append, String.toList_append, List.append_assoc,
        List.append_assoc]
      · exact rendered proper value depth (.of_text _ (by decide) _) comma
      · nofun
      · nofun

/-- Statements on lines of their own. No separation is needed: the last line is ended. -/
theorem Expr.rendered_lines {statements : List Expr} (all : ∀ x ∈ statements, x.Rendered)
    (depth : Nat) (h : Lexes cs ws) :
    Lexes ((sourceLines depth statements).toList ++ cs) (wordsLines statements ws) := by
  induction statements with
  | nil => exact h
  | cons e es ih =>
    have others := ih fun x inside => all x (List.mem_cons_of_mem _ inside)
    have ended := Lexes.symbol_blank ";\n" .semicolon '\n' rfl (by decide) others
    have first := all e (List.mem_cons_self ..) depth (.of_text _ (by decide) _) ended
    rw [sourceLines, wordsLines]
    simp only [String.toList_append, List.append_assoc]
    exact .indented depth first

theorem Block.rendered {b : Block} (all : ∀ x ∈ b.statements, x.Rendered) (depth : Nat)
    (h : Lexes cs ws) : Lexes ((b.sourceAt depth).toList ++ cs) (b.words ws) := by
  obtain ⟨statements, span⟩ := b
  have close := Lexes.closed .rightBrace rfl h
  cases statements with
  | nil =>
    rw [sourceAt, words, Expr.wordsLines]
    exact .closed .leftBrace rfl close
  | cons e es =>
    have lines := Expr.rendered_lines all (depth + 1) (Lexes.indented depth close)
    rw [sourceAt, words]
    · simp only [String.toList_append, List.append_assoc]
      exact .symbol_blank _ .leftBrace '\n' rfl (by decide) lines
    · exact List.cons_ne_nil _ _

/-- A condition and the block that it guards. -/
theorem Conditional.rendered_link {condition : Expr} {body : Block} (first : condition.Rendered)
    (all : ∀ x ∈ body.statements, x.Rendered) (depth : Nat) (h : Lexes cs ws) :
    Lexes ("if ".toList ++ ((condition.sourceAt depth).toList ++
        (" then ".toList ++ ((body.sourceAt depth).toList ++ cs))))
      (Keyword.if_.word :: condition.words (Keyword.then_.word :: body.words ws)) := by
  have guarded := Lexes.space_keyword_space " then " .then_ (by decide) (body.rendered all depth h)
  exact .keyword_space _ .if_ (by decide) (first depth (.of_text _ (by decide) _) guarded)

theorem Conditional.rendered (branches : Conditional) (all : ∀ x ∈ branches.children, x.Rendered)
    (depth : Nat) (h : Lexes cs ws) :
    Lexes ((branches.sourceAt depth).toList ++ cs) (branches.words ws) := by
  match branches with
  | .only condition body =>
    obtain ⟨first, inBody⟩ := List.forall_mem_cons.1 all
    rw [sourceAt, words]
    simp only [String.toList_append, List.append_assoc]
    exact rendered_link first inBody depth h
  | .withElse condition body otherwise =>
    obtain ⟨first, inBlocks⟩ := List.forall_mem_cons.1 all
    obtain ⟨inBody, inElse⟩ := List.forall_mem_append.1 inBlocks
    have last := Lexes.space_keyword_space " else " .else_ (by decide)
      (otherwise.rendered inElse depth h)
    rw [sourceAt, words]
    simp only [String.toList_append, List.append_assoc]
    exact rendered_link first inBody depth last
  | .withElseIf condition body next span =>
    obtain ⟨first, inBlocks⟩ := List.forall_mem_cons.1 all
    obtain ⟨inBody, inNext⟩ := List.forall_mem_append.1 inBlocks
    have last := Lexes.space_keyword_space " else " .else_ (by decide)
      (next.rendered inNext depth h)
    rw [sourceAt, words]
    simp only [String.toList_append, List.append_assoc]
    exact rendered_link first inBody depth last

end Rows

/-- The source of an expression is cut into the words of the expression. -/
theorem Expr.rendered {e : Expr} (regular : e.Everywhere Regular) (plain : e.Everywhere Plain) :
    e.Rendered := by
  induction e using Expr.childInduction with | step e hypothesis
  have ih : ∀ x ∈ e.children, x.Rendered :=
    fun x inside => hypothesis x inside (regular.child inside) (plain.child inside)
  have proper := regular.self.names
  intro depth cs ws apart h
  cases e with
  | literal value span =>
    exact Literal.lexes plain.self (regular.self.unsigned value span rfl) apart h
  | list items span =>
    have close := Lexes.closed .rightBracket rfl h
    rw [sourceAt, words]
    simp only [String.toList_append, List.append_assoc]
    exact .closed .leftBracket rfl (rendered_all ih depth (.of_text _ (by decide) _) close)
  | map entries span =>
    have both : ∀ x ∈ entries, x.1.Rendered ∧ x.2.Rendered := by
      intro x inside
      have parts : ∀ y ∈ [x.1, x.2], y.Rendered :=
        fun y part => ih y (List.mem_flatMap.2 ⟨x, inside, part⟩)
      exact ⟨parts _ (by simp), parts _ (by simp)⟩
    have close := Lexes.closed .rightTriangle rfl h
    rw [sourceAt, words]
    simp only [String.toList_append, List.append_assoc]
    exact .closed .leftTriangle rfl (rendered_entries both depth (.of_text _ (by decide) _) close)
  | name ident span => exact .name (proper ident (List.mem_singleton_self _)) apart h
  | unary op operand span =>
    have close := Lexes.closed .rightParen rfl h
    have operated := ih operand (List.mem_singleton_self _) depth (.of_text _ (by decide) _) close
    have valued := regular.self.parts operand (List.mem_singleton_self _)
    obtain ⟨first, tail, eq, opens⟩ := words_opens valued (Symbol.rightParen.word :: ws)
    rw [sourceAt, words]
    simp only [String.toList_append, List.append_assoc]
    refine .closed .leftParen rfl (op.lexes ?_ operated)
    -- A minus sign would make one token with an equals sign, but no operand starts with one.
    rw [eq]
    rintro w ⟨⟩ equals
    rw [equals] at opens
    cases opens
  | binary op lhs rhs span =>
    have close := Lexes.closed .rightParen rfl h
    have right := ih rhs (by simp [children]) depth (.of_text _ (by decide) _) close
    have left := ih lhs (by simp [children]) depth (op.separated _) (op.lexes right)
    rw [sourceAt, words]
    simp only [String.toList_append, List.append_assoc]
    exact .closed .leftParen rfl left
  | declare d span =>
    exact Declaration.rendered (proper d.name (List.mem_singleton_self _))
      (ih d.value (List.mem_singleton_self _)) depth apart h
  | assign target value span =>
    have assigned := Lexes.space_keyword_space " is " .is (by decide)
      (ih value (List.mem_singleton_self _) depth apart h)
    have named := Lexes.name (proper target (List.mem_singleton_self _))
      (.of_text _ (by decide) _) assigned
    rw [sourceAt, words]
    simp only [String.toList_append, List.append_assoc]
    exact .keyword_space _ .set (by decide) named
  | block body span => exact body.rendered ih depth h
  | cond branches span => exact branches.rendered ih depth h
  | loop vars body span =>
    obtain ⟨inVars, inBody⟩ := List.forall_mem_append.1 ih
    have each : ∀ d ∈ vars, IsName d.name.name ∧ d.value.Rendered := by
      intro d inside
      exact ⟨proper d.name (List.mem_map_of_mem inside),
        inVars d.value (List.mem_map_of_mem inside)⟩
    have body := Lexes.space (body.rendered inBody depth h)
    have header := Declaration.rendered_all each depth (.of_text _ (by decide) _) body
    rw [sourceAt, words]
    simp only [String.toList_append, List.append_assoc]
    exact .keyword_space _ .for_ (by decide) header
  | exit kind value span =>
    cases value with
    | none =>
      rw [sourceAt, words]
      cases kind with
      | return_ => exact .keyword .return_ apart h
      | break_ => exact .keyword .break_ apart h
    | some value =>
      have valued := ih value (List.mem_singleton_self _) depth apart h
      rw [sourceAt, words]
      simp only [String.toList_append, List.append_assoc]
      cases kind with
      | return_ => exact .keyword .return_ (.of_text _ (by decide) _) (.space valued)
      | break_ => exact .keyword .break_ (.of_text _ (by decide) _) (.space valued)
  | call callee arguments span =>
    have close := Lexes.closed .rightParen rfl h
    have row := Lexes.closed .leftParen rfl
      (rendered_all ih depth (.of_text _ (by decide) _) close)
    rw [sourceAt, words]
    simp only [String.toList_append, List.append_assoc]
    exact .name (proper callee (List.mem_singleton_self _)) (.of_text _ (by decide) _) row

/-- The source of a program is cut into the words of its statements. -/
theorem Program.lexes_source {p : Program} (regular : ∀ s ∈ p, s.Everywhere Expr.Regular)
    (plain : ∀ s ∈ p, s.Everywhere Expr.Plain) :
    Lexes p.source.toList (Expr.wordsLines p []) := by
  have rendered : ∀ s ∈ p, s.Rendered :=
    fun s inside => Expr.rendered (regular s inside) (plain s inside)
  have lines := Expr.rendered_lines rendered 0 Lexes.nil
  rwa [List.append_nil] at lines

end ExprLang
