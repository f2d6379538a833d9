import ExprLang.Proofs.Scanning

set_option autoImplicit false

/-!
Joining lexemes. Put one after the other with separators between them, lexemes are cut apart again
at the separators, whatever a lexeme ends with and the next one starts with.
-/

namespace ExprLang

open Text

/-- White space, and comments that end with their lines. -/
inductive Spacing : List Char → Prop where
  | nil : Spacing []
  | blank {c : Char} {gap : List Char} (white : isBlank c = true) (more : Spacing gap) :
    Spacing (c :: gap)
  | comment (body : List Char) {gap : List Char} (line : '\n' ∉ body) (more : Spacing gap) :
    Spacing ('/' :: '/' :: (body ++ '\n' :: gap))

theorem Spacing.replicate (n : Nat) : Spacing (List.replicate n ' ') := by
  induction n with
  | zero => exact .nil
  | succ n ih => exact .blank rfl ih

theorem byteSize_replicate (n : Nat) : byteSize (List.replicate n ' ') = n := by
  induction n with
  | zero => rfl
  | succ n ih =>
    rw [List.replicate_succ, byteSize_cons, ih]
    exact Nat.add_comm 1 n

/-- Spacing that begins with white space. -/
structure Separator (gap : List Char) : Prop where
  spacing : Spacing gap
  white : ∃ c ∈ gap.head?, isBlank c = true

/-- A lexeme of some kind, and the separator after it, if there is one. -/
structure Stretch where
  kind : TokenKind
  lexeme : List Char
  gap : List Char
  valid : Lexeme kind lexeme
  parted : gap = [] ∨ Separator gap

def Stretch.text (p : Stretch) : List Char :=
  p.lexeme ++ p.gap

/-- The text that stretches make up. -/
def Stretch.join (stretches : List Stretch) : List Char :=
  stretches.flatMap Stretch.text

/-- The tokens of stretches that stand at the offset. -/
def Stretch.tokens (offset : Nat) : List Stretch → List Token
  | [] => []
  | p :: rest =>
    ⟨p.kind, .ofRange offset (offset + byteSize p.lexeme)⟩ ::
      Stretch.tokens (offset + byteSize p.text) rest

/-! ### Separators are passed over -/

namespace Scan

theorem skipComment_line {body : List Char} (line : '\n' ∉ body) (offset : Nat)
    (rest : List Char) :
    skipComment offset (body ++ '\n' :: rest) = skipTrivia (offset + byteSize body + 1) rest := by
  induction body generalizing offset with
  | nil =>
    rw [List.nil_append, skipComment]
    rfl
  | cons c body ih =>
    have other : c ≠ '\n' := by
      rintro rfl
      exact line (List.mem_cons_self ..)
    have inside : '\n' ∉ body := fun later => line (List.mem_cons_of_mem _ later)
    rw [List.cons_append, skipComment, ih inside, byteSize_cons, Nat.add_assoc offset]
    exact other

theorem skipTrivia_spacing {gap : List Char} (h : Spacing gap) (offset : Nat)
    (rest : List Char) :
    skipTrivia offset (gap ++ rest) = skipTrivia (offset + byteSize gap) rest := by
  induction h generalizing offset with
  | nil => rfl
  | blank white more ih =>
    rw [List.cons_append, Lexes.skipTrivia_blank white, ih, byteSize_cons, Nat.add_assoc]
  | @comment body gap line more ih =>
    have size : byteSize ('/' :: '/' :: (body ++ '\n' :: gap)) =
        1 + (1 + (byteSize body + (1 + byteSize gap))) := by
      rw [byteSize_cons, byteSize_cons, byteSize_append, byteSize_cons]
      rfl
    have reached : offset + 2 + byteSize body + 1 + byteSize gap =
        offset + byteSize ('/' :: '/' :: (body ++ '\n' :: gap)) := by omega
    rw [List.cons_append, List.cons_append, List.append_assoc, List.cons_append, skipTrivia,
      skipComment_line line, ih, reached]

end Scan

theorem Spacing.items {gap : List Char} (h : Spacing gap) (offset : Nat) (rest : List Char) :
    (Cursor.mk (gap ++ rest) offset).items = (Cursor.mk rest (offset + byteSize gap)).items := by
  apply Cursor.items_congr
  simp only [Cursor.next?, Scan.skipTrivia_spacing h]

theorem Stretch.spacing_gap (p : Stretch) : Spacing p.gap := by
  rcases p.parted with none | separator
  · rw [none]
    exact .nil
  · exact separator.spacing

/-! ### Lexemes are cut where they end -/

/-- The end of a text, or white space next in it. -/
def Parted (cs : List Char) : Prop :=
  ∀ c ∈ cs.head?, isBlank c = true

theorem Parted.separated {cs : List Char} (parted : Parted cs) : Lexes.Separated cs := by
  intro c first
  have blank := parted c first
  have visible (solid : c.isAlpha = true ∨ c.isDigit = true ∨ c = '"') : False := by
    rw [(Lexes.fresh_of_solid solid []).1] at blank
    cases blank
  refine ⟨?_, ?_, ?_⟩
  · rw [Bool.eq_false_iff]
    exact fun alpha => visible (.inl alpha)
  · rw [Bool.eq_false_iff]
    exact fun digit => visible (.inr (.inl digit))
  · rintro rfl
    exact absurd blank (by decide)

theorem Symbol.isBlank_extensions (s : Symbol) : ∀ c ∈ s.extensions, isBlank c = false := by
  have all : s.extensions.all (fun c => !isBlank c) = true := by cases s <;> decide
  intro c inside
  simpa using List.all_eq_true.1 all c inside

theorem Lexeme.starts {kind : TokenKind} {lexeme cs : List Char} (valid : Lexeme kind lexeme)
    (parted : Parted cs) : Lexes.Starts kind lexeme cs := by
  have apart := parted.separated
  cases valid with
  | symbol s =>
    apply Lexes.starts_symbol
    intro c first longer
    have blank := parted c first
    rw [s.isBlank_extensions c longer] at blank
    cases blank
  | keyword k => exact Lexes.starts_keyword k apart
  | name proper => exact Lexes.starts_name proper apart
  | int nonempty all => exact Lexes.starts_int nonempty all apart
  | dec nonempty follows before after =>
    exact Lexes.starts_dec nonempty follows before after apart
  | string opened => exact Lexes.starts_string (opened.findStringEnd cs)

/-! ### Rows of lexemes -/

namespace Stretch

variable {p : Stretch} {rest : List Stretch}

/-- What follows the lexeme of a stretch, if the gap is there wherever another one follows. -/
theorem parted_after (apart : ∀ q ∈ (p :: rest).dropLast, q.gap ≠ []) :
    Parted (p.gap ++ join rest) := by
  rcases p.parted with none | separator
  · cases rest with
    | nil =>
      rw [none]
      rintro c ⟨⟩
    | cons q rest => exact absurd none (apart p (List.mem_cons_self ..))
  · obtain ⟨c, first, white⟩ := separator.white
    obtain ⟨tail, eq⟩ := List.head?_eq_some_iff.1 first
    rw [eq]
    rintro d ⟨⟩
    exact white

theorem apart_tail (apart : ∀ q ∈ (p :: rest).dropLast, q.gap ≠ []) :
    ∀ q ∈ rest.dropLast, q.gap ≠ [] := by
  cases rest with
  | nil => exact fun q inside => absurd inside List.not_mem_nil
  | cons r rest => exact fun q inside => apart q (List.mem_cons_of_mem _ inside)

/-- Stretches are cut into their lexemes. -/
theorem items_join {stretches : List Stretch} (apart : ∀ p ∈ stretches.dropLast, p.gap ≠ [])
    (offset : Nat) :
    (Cursor.mk (join stretches) offset).items = (tokens offset stretches).map .ok := by
  induction stretches generalizing offset with
  | nil => exact Cursor.items_of_none rfl
  | cons p rest ih =>
    have text : join (p :: rest) = p.lexeme ++ (p.gap ++ join rest) := by
      rw [join, List.flatMap_cons, Stretch.text, List.append_assoc]
      rfl
    have first := Lexes.next?_of_starts (p.valid.starts (parted_after apart)) offset
    have size : offset + byteSize p.lexeme + byteSize p.gap = offset + byteSize p.text := by
      rw [Stretch.text, byteSize_append, Nat.add_assoc]
    rw [text, Cursor.items_of_some first, p.spacing_gap.items, ih (apart_tail apart), size]
    rfl

theorem kinds_tokens (offset : Nat) (stretches : List Stretch) :
    (tokens offset stretches).map (·.kind) = stretches.map (·.kind) := by
  induction stretches generalizing offset with
  | nil => rfl
  | cons p rest ih =>
    rw [tokens, List.map_cons, List.map_cons, ih]

/-- In a source that is short enough for its offsets, spans tell where the lexemes stand. -/
theorem texts_tokens {source : String} (small : source.utf8ByteSize < UInt32.size)
    {before : List Char} {stretches : List Stretch}
    (whole : source.toList = before ++ join stretches) :
    (tokens (byteSize before) stretches).map (·.span.text? source) =
      stretches.map fun p => some (String.ofList p.lexeme) := by
  induction stretches generalizing before with
  | nil => rfl
  | cons p rest ih =>
    have parts : source.toList = before ++ p.lexeme ++ (p.gap ++ join rest) := by
      rw [whole, join, List.flatMap_cons, Stretch.text]
      simp only [List.append_assoc]
      rfl
    have next : source.toList = before ++ p.text ++ join rest := by
      rw [parts, Stretch.text]
      simp only [List.append_assoc]
    rw [tokens, List.map_cons, List.map_cons, Span.text?_ofRange small parts, ← byteSize_append,
      ih next]

end Stretch

/-! ### Call after call -/

namespace Cursor

theorem end_next (c : Cursor) :
    c.next.2.offset + byteSize c.next.2.rest = c.offset + byteSize c.rest := by
  obtain ⟨gap, taken, rest, reads⟩ := c.exists_reads
  rw [reads.next, reads.text, byteSize_append, byteSize_append]
  show c.offset + byteSize gap + byteSize taken + byteSize rest = _
  omega

/-- Where nothing is left to read, a call gives the end mark. -/
theorem next_at_end {c : Cursor} (none : c.next? = none) :
    c.next.1 = .ok (.endOfText (c.offset + byteSize c.rest)) := by
  obtain ⟨gap, taken, rest, reads⟩ := c.exists_reads
  apply reads.ended
  apply Classical.byContradiction
  intro some
  have unended := reads.unended some
  rw [next_of_none none] at unended
  cases unended

/-- The calls give the items of the scan, and then the end mark over and over. -/
theorem call_eq (c : Cursor) (n : Nat) :
    c.call n = c.items[n]?.getD (.ok (.endOfText (c.offset + byteSize c.rest))) := by
  induction n generalizing c with
  | zero =>
    cases found : c.next? with
    | none =>
      rw [items_of_none found]
      exact next_at_end found
    | some step =>
      rw [items_of_some found, call, after, next_of_some found]
      rfl
  | succ n ih =>
    have later : c.call (n + 1) = c.next.2.call n := rfl
    rw [later, ih, end_next]
    cases found : c.next? with
    | none => rw [items_of_none found, items_of_none (next?_after_none found)]; rfl
    | some step =>
      rw [items_of_some found, next_of_some found, List.getElem?_cons_succ]

end Cursor

/-- Lexemes that are joined with separators between them, and spacing in front, are read one by one,
each with its kind, and then the end mark. In a source that is short enough for its offsets, the
lexemes are the texts at the spans of their tokens. -/
theorem joined_lexemes_are_read {front : List Char} (spacing : Spacing front)
    {stretches : List Stretch} (apart : ∀ p ∈ stretches.dropLast, p.gap ≠ []) :
    let source := String.ofList (front ++ Stretch.join stretches)
    ∃ tokens : List Token,
      (∀ n, (Cursor.ofSource source).call n =
        .ok (tokens[n]?.getD (.endOfText source.utf8ByteSize))) ∧
      Stream.ofSource source = ⟨tokens.map .ok, .endOfText source.utf8ByteSize⟩ ∧
      tokens.map (·.kind) = stretches.map (·.kind) ∧
      (source.utf8ByteSize < UInt32.size →
        tokens.map (·.span.text? source) =
          stretches.map fun p => some (String.ofList p.lexeme)) := by
  intro source
  have text : source.toList = front ++ Stretch.join stretches := String.toList_ofList
  have items : (Cursor.ofSource source).items =
      (Stretch.tokens (byteSize front) stretches).map .ok := by
    rw [Cursor.ofSource, text, spacing.items, Stretch.items_join apart, Nat.zero_add]
  refine ⟨Stretch.tokens (byteSize front) stretches, ?_, ?_, Stretch.kinds_tokens _ _, ?_⟩
  · intro n
    have size : (Cursor.ofSource source).offset + byteSize (Cursor.ofSource source).rest =
        source.utf8ByteSize := (Nat.zero_add _).trans (byteSize_toList source)
    rw [Cursor.call_eq, items, size, List.getElem?_map]
    cases (Stretch.tokens (byteSize front) stretches)[n]? <;> rfl
  · rw [Stream.ofSource, items]
  · intro small
    exact Stretch.texts_tokens small text

section Lookalikes

private theorem separator_single {c : Char} (white : isBlank c = true) : Separator [c] :=
  ⟨.blank white .nil, c, rfl, white⟩

/-- Lexemes that would be other ones, or comments, if they stood closer. -/
def lookalikes : List Stretch :=
  [⟨_, _, [' '], .symbol .less, .inr (separator_single rfl)⟩,
   ⟨_, _, " //|\n".toList, .symbol .slash,
    .inr ⟨.blank rfl (.comment ['|'] (by decide) .nil), ' ', rfl, rfl⟩⟩,
   ⟨_, _, ['\t'], .symbol .slash, .inr (separator_single rfl)⟩,
   ⟨_, ['7'], ['\u3000'], .int (List.cons_ne_nil _ _) (List.forall_mem_singleton.2 rfl),
    .inr (separator_single rfl)⟩,
   ⟨_, _, [' '], @Lexeme.dec ['7'] ['5'] (List.cons_ne_nil _ _) (List.cons_ne_nil _ _)
      (List.forall_mem_singleton.2 rfl) (List.forall_mem_singleton.2 rfl),
    .inr (separator_single rfl)⟩,
   ⟨_, _, [' '], @Lexeme.string ['\\', '"', '/', '/'] (.escape rfl
      (.plain (by decide) (by decide) (.plain (by decide) (by decide) .nil))),
    .inr (separator_single rfl)⟩,
   ⟨_, _, ['\n'], .keyword .for_, .inr (separator_single rfl)⟩,
   ⟨_, _, [], @Lexeme.name "fore" ⟨by decide, List.all_eq_true.1 (by decide), by decide⟩, .inl rfl⟩]

theorem lookalikes_are_read :
    (∀ p ∈ lookalikes.dropLast, p.gap ≠ []) ∧
    ∃ tokens : List Token,
      Stream.ofSource "< / //|\n/\t7\u30007.5 \"\\\"//\" for\nfore" =
        ⟨tokens.map .ok, .endOfText 33⟩ ∧
      tokens.map (·.kind) =
        [.symbol .less, .symbol .slash, .symbol .slash, .int, .dec, .string, .keyword .for_,
          .ident] ∧
      tokens.map (·.span.text? "< / //|\n/\t7\u30007.5 \"\\\"//\" for\nfore") =
        [some "<", some "/", some "/", some "7", some "7.5", some "\"\\\"//\"", some "for",
          some "fore"] := by
  have apart : ∀ p ∈ lookalikes.dropLast, p.gap ≠ [] := by
    have none : lookalikes.dropLast.all (fun p => !p.gap.isEmpty) = true := by decide
    intro p inside
    simpa using List.all_eq_true.1 none p inside
  have text : String.ofList ([] ++ Stretch.join lookalikes) =
      "< / //|\n/\t7\u30007.5 \"\\\"//\" for\nfore" := by decide
  obtain ⟨tokens, -, stream, kinds, texts⟩ := joined_lexemes_are_read .nil apart
  rw [text] at stream texts
  exact ⟨apart, tokens, stream, kinds, texts (by decide)⟩

end Lookalikes

section Distant

/-- Two numbers that are so many blanks apart. -/
def distantNumbers (n : Nat) : List Stretch :=
  [⟨_, ['1'], ' ' :: List.replicate n ' ',
    .int (List.cons_ne_nil _ _) (List.forall_mem_singleton.2 rfl),
    .inr ⟨.blank rfl (.replicate n), ' ', rfl, rfl⟩⟩,
   ⟨_, ['2'], [], .int (List.cons_ne_nil _ _) (List.forall_mem_singleton.2 rfl), .inl rfl⟩]

theorem distantNumbers_apart (n : Nat) : ∀ p ∈ (distantNumbers n).dropLast, p.gap ≠ [] := by
  intro p inside
  obtain rfl := List.mem_singleton.1 inside
  exact List.cons_ne_nil _ _

theorem text?_distantNumbers {n : Nat} (nonempty : 0 < n) :
    Span.text? ⟨2, 1⟩ (String.ofList (Stretch.join (distantNumbers n))) = some " " := by
  obtain ⟨m, rfl⟩ := Nat.exists_eq_add_of_lt nonempty
  rw [Nat.zero_add]
  have whole : (String.ofList (Stretch.join (distantNumbers (m + 1)))).toList =
      ['1', ' '] ++ [' '] ++ (List.replicate m ' ' ++ ['2']) := by
    rw [String.toList_ofList]
    rfl
  exact Span.text?_of_parts whole rfl rfl

theorem items_distantNumbers {n : Nat} (full : n = UInt32.size) :
    (Stream.ofSource (String.ofList (Stretch.join (distantNumbers n)))).items =
      [.ok ⟨.int, ⟨0, 1⟩⟩, .ok ⟨.int, ⟨2, 1⟩⟩] := by
  have gap : byteSize ('1' :: ' ' :: List.replicate n ' ') = n + 2 := by
    rw [byteSize_cons, byteSize_cons, byteSize_replicate]
    show 1 + (1 + n) = n + 2
    omega
  have items := Stretch.items_join (distantNumbers_apart n) 0
  rw [Stream.ofSource, Cursor.ofSource, String.toList_ofList, items]
  have first : Stretch.tokens 0 (distantNumbers n) =
      [⟨.int, .ofRange 0 1⟩, ⟨.int, .ofRange (n + 2) (n + 3)⟩] := by
    rw [distantNumbers, Stretch.tokens, Stretch.tokens, Stretch.tokens, Stretch.text,
      List.singleton_append, gap, Nat.zero_add (n + 2)]
    rfl
  rw [first, Span.ofRange_wraps full]
  rfl

/-- Too far behind for its offset, a number is looked for among the blanks before it. -/
theorem distant_number_is_misplaced :
    let source := String.ofList (Stretch.join (distantNumbers UInt32.size))
    (∀ p ∈ (distantNumbers UInt32.size).dropLast, p.gap ≠ []) ∧
      (Stream.ofSource source).items = [.ok ⟨.int, ⟨0, 1⟩⟩, .ok ⟨.int, ⟨2, 1⟩⟩] ∧
      Span.text? ⟨2, 1⟩ source = some " " :=
  ⟨distantNumbers_apart _, items_distantNumbers rfl, text?_distantNumbers (by decide)⟩

end Distant

end ExprLang
