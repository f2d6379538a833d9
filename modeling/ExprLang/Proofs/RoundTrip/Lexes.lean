import ExprLang.Token.Scan

set_option autoImplicit false

/-!
What a text is cut into. Scanning is followed from the front: each lemma puts one token or one blank
before a text whose tokens are known, as long as the token cannot reach into that text. The kinds of
the tokens are those of the words in any case, and their lexemes are, if the source is short enough
for its offsets.
-/

namespace ExprLang

/-- A token without its place. -/
abbrev Word := TokenKind × String

def Token.word (source : String) (t : Token) : Word :=
  (t.kind, t.lexeme source)

def Symbol.word (s : Symbol) : Word :=
  (.symbol s, s.spelling)

def Keyword.word (k : Keyword) : Word :=
  (.keyword k, k.spelling)

/-- The kind of a row of letters. -/
def TokenKind.ofWord (s : String) : TokenKind :=
  match Keyword.ofWord? s with
  | some k => .keyword k
  | none => .ident

/-- Texts that can name something: letters, and not a reserved word. -/
structure IsName (s : String) : Prop where
  nonempty : s.toList ≠ []
  letters : ∀ c ∈ s.toList, c.isAlpha = true
  free : Keyword.ofWord? s = none

/-- The characters that make another token, or a comment, of a symbol. -/
def Symbol.extensions : Symbol → List Char
  | .plus | .minus | .star | .percent | .greater => ['=']
  | .slash => ['=', '/']
  | .less => ['=', '|']
  | _ => []

/-- Only a slash, alone or with an equals sign, starts with one. -/
theorem Symbol.spelling_front {s : Symbol} {c : Char} (first : s.spelling.toList.head? = some c) :
    Text.isBlank c = false ∧ (c = '/' → s = .slash ∨ s = .slashEqual) := by
  have front : s.spelling.toList.head?.all
      (fun c => !Text.isBlank c && (c != '/' || s == .slash || s == .slashEqual)) = true := by
    cases s <;> decide
  rw [first] at front
  have known : Text.isBlank c = false ∧ (c ≠ '/' ∨ s = .slash ∨ s = .slashEqual) := by
    simpa [or_assoc] using front
  exact ⟨known.1, fun slash => known.2.resolve_left fun other => other slash⟩

namespace Cursor

theorem items_of_none {c : Cursor} (h : c.next? = none) : c.items = [] := by
  rw [items]
  split
  next => rfl
  next found => rw [h] at found; cases found

theorem items_of_some {c c' : Cursor} {item : Item} (h : c.next? = some (item, c')) :
    c.items = item :: c'.items := by
  rw [items]
  split
  next none => rw [h] at none; cases none
  next found =>
    rw [h] at found
    cases found
    rfl

/-- Cursors that read the same next read the same from then on. -/
theorem items_congr {c d : Cursor} (h : c.next? = d.next?) : c.items = d.items := by
  cases found : d.next? with
  | none => rw [items_of_none found, items_of_none (h.trans found)]
  | some step => rw [items_of_some found, items_of_some (h.trans found)]

end Cursor

namespace Lexes

open Scan

/-- A text that starts with neither white space nor a comment. -/
def Fresh (c : Char) (cs : List Char) : Prop :=
  Text.isBlank c = false ∧ (c = '/' → cs.head? ≠ some '/')

/-- The text in front of `cs` is one token, whatever follows in `cs`. -/
def Starts (kind : TokenKind) (front cs : List Char) : Prop :=
  ∃ c rest, front ++ cs = c :: rest ∧ Fresh c rest ∧ cut c rest = ⟨.ok kind, [], front, cs⟩

end Lexes

/-- A text is cut into the words. -/
inductive Lexes : List Char → List Word → Prop where
  | nil : Lexes [] []
  | blank {c : Char} {cs : List Char} {words : List Word} (white : Text.isBlank c = true)
      (h : Lexes cs words) : Lexes (c :: cs) words
  | token {kind : TokenKind} {front cs : List Char} {words : List Word}
      (first : Lexes.Starts kind front cs) (h : Lexes cs words) :
      Lexes (front ++ cs) ((kind, String.ofList front) :: words)

namespace Lexes

open Scan

variable {cs : List Char} {words : List Word}

theorem skipTrivia_blank {c : Char} (blank : Text.isBlank c = true) (offset : Nat)
    (cs : List Char) :
    skipTrivia offset (c :: cs) = skipTrivia (offset + c.utf8Size) cs := by
  have other : c ≠ '/' := by
    rintro rfl
    rw [Text.isBlank_slash] at blank
    cases blank
  rw [skipTrivia.eq_def]
  split
  next eq => exact absurd (List.cons.inj eq).1 other
  next eq =>
    obtain ⟨rfl, rfl⟩ := List.cons.inj eq
    rw [if_pos blank]
  next eq => cases eq

/-- White space at the front does not matter. -/
theorem items_blank {c : Char} (blank : Text.isBlank c = true) (offset : Nat) (cs : List Char) :
    (Cursor.mk (c :: cs) offset).items = (Cursor.mk cs (offset + c.utf8Size)).items := by
  apply Cursor.items_congr
  simp only [Cursor.next?, skipTrivia_blank blank]

theorem skipTrivia_fresh {c : Char} (fresh : Fresh c cs) (offset : Nat) :
    skipTrivia offset (c :: cs) = ⟨c :: cs, offset⟩ := by
  rw [skipTrivia.eq_def]
  split
  next rest eq =>
    obtain ⟨rfl, rfl⟩ := List.cons.inj eq
    exact absurd rfl (fresh.2 rfl)
  next eq =>
    obtain ⟨rfl, rfl⟩ := List.cons.inj eq
    rw [if_neg (by rw [fresh.1]; exact Bool.false_ne_true)]
  next eq => cases eq

theorem next?_of_starts {front : List Char} {kind : TokenKind} (h : Starts kind front cs)
    (offset : Nat) :
    (Cursor.mk (front ++ cs) offset).next? =
      some (.ok ⟨kind, .ofRange offset (offset + Text.byteSize front)⟩,
        ⟨cs, offset + Text.byteSize front⟩) := by
  obtain ⟨c, rest, eq, fresh, found⟩ := h
  rw [eq]
  simp only [Cursor.next?, skipTrivia_fresh fresh, found, Text.byteSize_nil, Nat.add_zero]

/-- Inside of a source, the text is scanned as tokens with the kinds of the words. If the source is
short enough for its offsets, the tokens have the lexemes of the words, too. -/
theorem items {source : String} {before : List Char} (h : Lexes cs words)
    (whole : source.toList = before ++ cs) :
    ∃ tokens : List Token, (Cursor.mk cs (Text.byteSize before)).items = tokens.map .ok ∧
      tokens.map (·.kind) = words.map (·.1) ∧
      (source.utf8ByteSize < UInt32.size → tokens.map (Token.word source) = words) := by
  induction h generalizing before with
  | nil => exact ⟨[], Cursor.items_of_none rfl, rfl, fun _ => rfl⟩
  | @blank c cs words white h ih =>
    have next : source.toList = before ++ [c] ++ cs := by
      rw [whole, List.append_assoc, List.singleton_append]
    have offset : Text.byteSize (before ++ [c]) = Text.byteSize before + c.utf8Size := by
      simp
    obtain ⟨tokens, scanned, same⟩ := ih next
    rw [offset] at scanned
    exact ⟨tokens, (items_blank white _ cs).trans scanned, same⟩
  | @token kind front cs words first h ih =>
    rw [← List.append_assoc] at whole
    obtain ⟨tokens, scanned, kinds, same⟩ := ih whole
    rw [Text.byteSize_append] at scanned
    have step := next?_of_starts first (Text.byteSize before)
    let offset := Text.byteSize before
    let token : Token := ⟨kind, .ofRange offset (offset + Text.byteSize front)⟩
    refine ⟨token :: tokens, ?_, ?_, fun small => ?_⟩
    · rw [Cursor.items_of_some step, scanned]
      rfl
    · rw [List.map_cons, kinds]
      rfl
    · rw [List.map_cons, same small, Token.word, Token.lexeme, Span.text?_ofRange small whole]
      rfl

/-- A text is scanned as tokens with the kinds of the words. -/
theorem kinds_ofSource {text : String} (h : Lexes text.toList words) :
    ∃ tokens : List Token, (Stream.ofSource text).items = tokens.map .ok ∧
      tokens.map (·.kind) = words.map (·.1) := by
  obtain ⟨tokens, scanned, kinds, -⟩ := h.items (List.nil_append _).symm
  exact ⟨tokens, scanned, kinds⟩

/-- A text that is short enough for its offsets is scanned as tokens with the words. -/
theorem words_ofSource {text : String} (h : Lexes text.toList words)
    (small : text.utf8ByteSize < UInt32.size) :
    ∃ tokens : List Token, (Stream.ofSource text).items = tokens.map .ok ∧
      tokens.map (Token.word text) = words := by
  obtain ⟨tokens, scanned, -, same⟩ := h.items (List.nil_append _).symm
  exact ⟨tokens, scanned, same small⟩

/-- The first word is the token that the text starts with. -/
theorem head?_of_token {front : List Char} {kind : TokenKind} (first : Starts kind front cs)
    (h : Lexes (front ++ cs) words) : words.head? = some (kind, String.ofList front) := by
  obtain ⟨c, rest, eq, fresh, found⟩ := first
  rw [eq] at h
  generalize text : c :: rest = whole at h
  cases h with
  | nil => cases text
  | blank white =>
    cases text
    rw [fresh.1] at white
    cases white
  | token other =>
    obtain ⟨d, rest', eq', _, found'⟩ := other
    rw [eq'] at text
    cases text
    rw [found] at found'
    cases found'
    rfl

theorem symbol?_append (s : Symbol) (free : ∀ c ∈ cs.head?, c ∉ s.extensions) :
    symbol? (s.spelling.toList ++ cs) = some s := by
  cases cs with
  | nil => cases s <;> decide
  | cons c cs =>
    have apart : ∀ d ∈ s.extensions, (d == c) = false := by
      intro d inside
      rw [beq_eq_false_iff_ne]
      rintro rfl
      exact free d rfl inside
    cases s <;>
      simp only [Symbol.extensions, List.forall_mem_cons, List.not_mem_nil, false_implies,
        implies_true, and_true] at apart <;>
      simp [symbol?, Symbol.all, Symbol.spelling, List.find?, List.isPrefixOf, apart]

/-- A symbol, before a text that it cannot be extended by. -/
theorem starts_symbol (s : Symbol) (free : ∀ c ∈ cs.head?, c ∉ s.extensions) :
    Starts (.symbol s) s.spelling.toList cs := by
  have found := symbol?_append s free
  obtain ⟨c, rest, spelled⟩ : ∃ c rest, s.spelling.toList = c :: rest :=
    List.exists_cons_of_length_pos s.spelling_length_pos
  refine ⟨c, rest ++ cs, by rw [spelled, List.cons_append], ?_, ?_⟩
  · obtain ⟨visible, slash⟩ := Symbol.spelling_front (c := c) (by rw [spelled]; rfl)
    refine ⟨visible, fun eq => ?_⟩
    have tail : rest = s.spelling.toList.tail := by rw [spelled]; rfl
    rcases slash eq with rfl | rfl
    · rw [tail]
      exact fun slash => free '/' slash (by decide)
    · rw [tail]
      rintro ⟨⟩
  · rw [spelled, List.cons_append] at found
    have dropped : (c :: (rest ++ cs)).drop s.spelling.toList.length = cs := by
      rw [spelled, ← List.cons_append, List.drop_left]
    unfold cut
    simp only [found, dropped]

theorem symbol (s : Symbol) (free : ∀ c ∈ cs.head?, c ∉ s.extensions) (h : Lexes cs words) :
    Lexes (s.spelling.toList ++ cs) (s.word :: words) := by
  have lexed := token (starts_symbol s free) h
  rwa [String.ofList_toList] at lexed

/-- A text that starts with a symbol that nothing extends starts with that token. -/
theorem head?_of_symbol (s : Symbol) (final : s.extensions = [])
    (h : Lexes (s.spelling.toList ++ cs) words) : words.head? = some s.word := by
  have free : ∀ c ∈ cs.head?, c ∉ s.extensions := by
    rw [final]
    exact fun _ _ => List.not_mem_nil
  rw [head?_of_token (starts_symbol s free) h, String.ofList_toList]
  rfl

/-- The text does not go on with what could belong to a word or a number. -/
def Separated (cs : List Char) : Prop :=
  ∀ c ∈ cs.head?, c.isAlpha = false ∧ c.isDigit = false ∧ c ≠ '.'

/-- No symbol starts like a word, a number or a string literal. -/
theorem symbol?_none {c : Char} (other : c.isAlpha = true ∨ c.isDigit = true ∨ c = '"')
    (cs : List Char) : symbol? (c :: cs) = none := by
  unfold symbol?
  rw [List.find?_eq_none]
  intro s _
  have first : s.spelling.toList.head?.all
      (fun d => !d.isAlpha && !d.isDigit && d != '"') = true := by
    cases s <;> decide
  obtain ⟨d, rest, spelled⟩ : ∃ d rest, s.spelling.toList = d :: rest :=
    List.exists_cons_of_length_pos s.spelling_length_pos
  rw [spelled] at first ⊢
  obtain ⟨⟨alpha, digit⟩, quote⟩ : (d.isAlpha = false ∧ d.isDigit = false) ∧ d ≠ '"' := by
    simpa using first
  simp only [List.isPrefixOf, Bool.and_eq_true, beq_iff_eq, not_and]
  rintro rfl
  rcases other with h | h | h
  · rw [alpha] at h; cases h
  · rw [digit] at h; cases h
  · exact absurd h quote

theorem toNat_of_isAlpha {c : Char} (alpha : c.isAlpha = true) :
    65 ≤ c.toNat ∧ c.toNat ≤ 90 ∨ 97 ≤ c.toNat ∧ c.toNat ≤ 122 := by
  have cased : c.isUpper = true ∨ c.isLower = true := Bool.or_eq_true_iff.1 alpha
  rcases cased with upper | lower
  · have bounds : 'A'.val ≤ c.val ∧ c.val ≤ 'Z'.val := of_decide_eq_true upper
    exact .inl ⟨UInt32.le_iff_toNat_le.1 bounds.1, UInt32.le_iff_toNat_le.1 bounds.2⟩
  · have bounds := Bool.and_eq_true_iff.1 lower
    exact .inr ⟨UInt32.le_iff_toNat_le.1 (of_decide_eq_true bounds.1),
      UInt32.le_iff_toNat_le.1 (of_decide_eq_true bounds.2)⟩

theorem toNat_of_isDigit {c : Char} (digit : c.isDigit = true) : 48 ≤ c.toNat ∧ c.toNat ≤ 57 :=
  Char.isDigit_iff_toNat.1 digit

theorem fresh_of_solid {c : Char} (solid : c.isAlpha = true ∨ c.isDigit = true ∨ c = '"')
    (cs : List Char) : Fresh c cs := by
  have range : 33 < c.toNat ∧ c.toNat < 128 ∧ c.toNat ≠ 47 := by
    rcases solid with h | h | rfl
    · have := toNat_of_isAlpha h
      omega
    · have := toNat_of_isDigit h
      omega
    · decide
  refine ⟨?_, fun slash => ?_⟩
  · simp [Text.isBlank, Text.blankRanges]
    omega
  · subst slash
    exact absurd rfl range.2.2

theorem run_of_stop {p : Char → Bool} {front : List Char} (all : ∀ c ∈ front, p c = true)
    (stop : ∀ c ∈ cs.head?, p c = false) :
    (front ++ cs).takeWhile p = front ∧ (front ++ cs).dropWhile p = cs := by
  rw [List.takeWhile_append_of_pos all, List.dropWhile_append_of_pos all]
  cases cs with
  | nil => exact ⟨List.append_nil _, rfl⟩
  | cons c cs =>
    have here := stop c rfl
    rw [List.takeWhile_cons_of_neg (by rw [here]; exact Bool.false_ne_true),
      List.dropWhile_cons_of_neg (by rw [here]; exact Bool.false_ne_true)]
    exact ⟨List.append_nil _, rfl⟩

/-- A row of letters, before a text that does not go on with letters. -/
theorem starts_letters {s : String} (nonempty : s.toList ≠ [])
    (letters : ∀ c ∈ s.toList, c.isAlpha = true) (apart : Separated cs) :
    Starts (.ofWord s) s.toList cs := by
  obtain ⟨c, rest, spelled⟩ := List.exists_cons_of_ne_nil nonempty
  have alpha : c.isAlpha = true := letters c (by rw [spelled]; exact List.mem_cons_self ..)
  have notQuote : c ≠ '"' := by
    rintro rfl
    exact absurd alpha (by decide)
  have notDigit : c.isDigit = false := by
    rw [Bool.eq_false_iff]
    intro digit
    have := toNat_of_isAlpha alpha
    have := toNat_of_isDigit digit
    omega
  refine ⟨c, rest ++ cs, by rw [spelled, List.cons_append], fresh_of_solid (.inl alpha) _, ?_⟩
  obtain ⟨taken, left⟩ := run_of_stop letters fun c first => (apart c first).1
  rw [spelled, List.cons_append] at taken left
  unfold cut
  simp only [symbol?_none (.inl alpha), if_neg notQuote, notDigit, alpha, Bool.false_eq_true,
    ↓reduceIte, cutWord, taken, left, ← spelled, String.ofList_toList]
  rfl

theorem ofWord_spelling (k : Keyword) : TokenKind.ofWord k.spelling = .keyword k := by
  cases k <;> decide

/-- A reserved word, before a text that does not go on with letters. -/
theorem starts_keyword (k : Keyword) (apart : Separated cs) :
    Starts (.keyword k) k.spelling.toList cs := by
  rw [← ofWord_spelling]
  have letters : k.spelling.toList.all Char.isAlpha = true := by cases k <;> decide
  exact starts_letters (by cases k <;> decide) (List.all_eq_true.1 letters) apart

theorem keyword (k : Keyword) (apart : Separated cs) (h : Lexes cs words) :
    Lexes (k.spelling.toList ++ cs) (k.word :: words) := by
  have lexed := token (starts_keyword k apart) h
  rwa [String.ofList_toList] at lexed

/-- A name, before a text that does not go on with letters. -/
theorem starts_name {s : String} (proper : IsName s) (apart : Separated cs) :
    Starts .ident s.toList cs := by
  have known : TokenKind.ofWord s = .ident := by
    rw [TokenKind.ofWord, proper.free]
  rw [← known]
  exact starts_letters proper.nonempty proper.letters apart

theorem name {s : String} (proper : IsName s) (apart : Separated cs) (h : Lexes cs words) :
    Lexes (s.toList ++ cs) ((.ident, s) :: words) := by
  have lexed := token (starts_name proper apart) h
  rwa [String.ofList_toList] at lexed

theorem starts_number {front : List Char} {kind : TokenKind} (nonempty : front ≠ [])
    (digit : ∀ c ∈ front.head?, c.isDigit = true)
    (found : cutNumber (front ++ cs) = ⟨.ok kind, [], front, cs⟩) : Starts kind front cs := by
  obtain ⟨c, rest, rfl⟩ := List.exists_cons_of_ne_nil nonempty
  have digit : c.isDigit = true := digit c rfl
  have notQuote : c ≠ '"' := by
    rintro rfl
    exact absurd digit (by decide)
  refine ⟨c, rest ++ cs, rfl, fresh_of_solid (.inr (.inl digit)) _, ?_⟩
  rw [List.cons_append] at found
  unfold cut
  simp only [symbol?_none (.inr (.inl digit)), if_neg notQuote, digit, ↓reduceIte, found]

/-- Digits alone are an integer. -/
theorem starts_int {digits : List Char} (nonempty : digits ≠ [])
    (all : ∀ c ∈ digits, c.isDigit = true) (apart : Separated cs) : Starts .int digits cs := by
  apply starts_number nonempty fun c first => all c (List.mem_of_mem_head? first)
  obtain ⟨taken, left⟩ := run_of_stop all fun c first => (apart c first).2.1
  unfold cutNumber
  simp only [taken, left]
  split
  next eq => exact absurd rfl (apart '.' rfl).2.2
  next => rfl

theorem int {digits : List Char} (nonempty : digits ≠ [])
    (all : ∀ c ∈ digits, c.isDigit = true) (apart : Separated cs) (h : Lexes cs words) :
    Lexes (digits ++ cs) ((.int, String.ofList digits) :: words) :=
  token (starts_int nonempty all apart) h

/-- Digits around a point are a decimal. -/
theorem starts_dec {whole fraction : List Char} (nonempty : whole ≠ []) (follows : fraction ≠ [])
    (before : ∀ c ∈ whole, c.isDigit = true) (after : ∀ c ∈ fraction, c.isDigit = true)
    (apart : Separated cs) : Starts .dec (whole ++ '.' :: fraction) cs := by
  have first : ∀ c ∈ (whole ++ '.' :: fraction).head?, c.isDigit = true := by
    cases whole with
    | nil => exact absurd rfl nonempty
    | cons d rest =>
      rintro c ⟨⟩
      exact before d (List.mem_cons_self ..)
  apply starts_number (List.append_ne_nil_of_left_ne_nil nonempty _) first
  have point : ∀ c ∈ ('.' :: (fraction ++ cs)).head?, c.isDigit = false := by
    rintro c ⟨⟩
    decide
  obtain ⟨taken, left⟩ := run_of_stop before point
  obtain ⟨taken', left'⟩ := run_of_stop after fun c first => (apart c first).2.1
  obtain ⟨d, rest, rfl⟩ := List.exists_cons_of_ne_nil follows
  have digit : d.isDigit = true := after d (List.mem_cons_self ..)
  rw [List.append_assoc, List.cons_append]
  rw [List.cons_append] at taken left taken' left' ⊢
  unfold cutNumber
  simp only [taken, left, digit, ↓reduceIte, taken', left']

theorem dec {whole fraction : List Char} (nonempty : whole ≠ []) (follows : fraction ≠ [])
    (before : ∀ c ∈ whole, c.isDigit = true) (after : ∀ c ∈ fraction, c.isDigit = true)
    (apart : Separated cs) (h : Lexes cs words) :
    Lexes (whole ++ '.' :: (fraction ++ cs))
      ((.dec, String.ofList (whole ++ '.' :: fraction)) :: words) := by
  have lexed := token (starts_dec nonempty follows before after apart) h
  rwa [List.append_assoc, List.cons_append] at lexed

/-- A string literal ends at the first quote that is not escaped. -/
theorem starts_string {body : List Char}
    (closed : findStringEnd (body ++ '"' :: cs) = .closed body cs) :
    Starts .string ('"' :: body ++ ['"']) cs := by
  refine ⟨'"', body ++ '"' :: cs, by simp, fresh_of_solid (.inr (.inr rfl)) _, ?_⟩
  unfold cut
  simp only [symbol?_none (.inr (.inr rfl)), ↓reduceIte, cutString, closed]

theorem string {body : List Char} (closed : findStringEnd (body ++ '"' :: cs) = .closed body cs)
    (h : Lexes cs words) :
    Lexes ('"' :: (body ++ '"' :: cs))
      ((.string, String.ofList ('"' :: body ++ ['"'])) :: words) := by
  have lexed := token (starts_string closed) h
  simpa using lexed

end Lexes

end ExprLang
