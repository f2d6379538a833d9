import ExprLang.Proofs.Grammar.Scanned
import ExprLang.Proofs.Scanning.Cuts

set_option autoImplicit false

/-!
Reading a source item by item, going on after errors. Each call starts where the one before it
stopped, passes over trivia and gives one item, so the spans of the items and the gaps between them
make up the source. After at most as many calls as there are characters, all that is left is the end
mark.
-/

namespace ExprLang

open Text

namespace Item

def span : Item → Span
  | .ok token => token.span
  | .error trouble => trouble.span

def isEnd : Item → Bool
  | .ok token => token.kind = .eof
  | .error _ => false

/-- The text `gap` may stand between the item before and this one, which `rest` starts with. An
unknown escape stands inside a string literal, whose text up to the escape belongs to the gap. -/
def Gap (gap rest : List Char) : Item → Prop
  | .error ⟨.unknownEscape _, _⟩ => ∃ trivia body, gap = trivia ++ '"' :: body ∧
      Scan.Trivia trivia ('"' :: body ++ rest) ∧ StringLiteral.Opened body
  | _ => Scan.Trivia gap rest

end Item

namespace Scan.Cut

/-- The item that a cut gives, if the text that it takes starts at the offset. -/
def item (k : Cut) (start : Nat) : Item :=
  let span := Span.ofRange start (start + byteSize k.taken)
  match k.found with
  | .ok kind => .ok ⟨kind, span⟩
  | .error cause => .error ⟨cause, span⟩

theorem span_item (k : Cut) (start : Nat) :
    (k.item start).span = .ofRange start (start + byteSize k.taken) := by
  obtain ⟨found, before, taken, rest⟩ := k
  cases found <;> rfl

theorem lexeme_of_item {c : Char} {cs : List Char} {start : Nat} {token : Token}
    (h : (cut c cs).item start = .ok token) : Lexeme token.kind (cut c cs).taken := by
  cases found : (cut c cs).found with
  | ok kind =>
    rw [item, found] at h
    cases h
    exact lexeme_of_cut found
  | error =>
    rw [item, found] at h
    cases h

theorem isEnd_item (c : Char) (cs : List Char) (start : Nat) :
    ((cut c cs).item start).isEnd = false := by
  cases given : (cut c cs).item start with
  | error => rfl
  | ok token => exact decide_eq_false (lexeme_of_item given).ne_eof

/-- What stands before the taken text, with the trivia in front, is a gap. -/
theorem Covers.gap {k : Cut} {cs gap : List Char} (h : k.Covers cs) (trivia : Trivia gap cs)
    (start : Nat) : (k.item start).Gap (gap ++ k.before) (k.taken ++ k.rest) := by
  have whole := h.whole
  have before := h.before
  obtain ⟨found, front, taken, rest⟩ := k
  rw [List.append_assoc] at whole
  cases found with
  | ok kind =>
    have none : front = [] := before
    subst none
    rw [whole] at trivia
    rw [List.append_nil]
    exact trivia
  | error cause =>
    cases cause with
    | unknownEscape letter =>
      obtain ⟨body, opened, valid⟩ := before
      have opened : front = '"' :: body := opened
      subst opened
      rw [whole] at trivia
      exact ⟨gap, body, rfl, trivia, valid⟩
    | unrecognized | unclosedString =>
      have none : front = [] := before
      subst none
      rw [whole] at trivia
      rw [List.append_nil]
      exact trivia

end Scan.Cut

namespace Cursor

/-- Where reading stands after so many calls. -/
def after : Nat → Cursor → Cursor
  | 0, c => c
  | n + 1, c => after n c.next.2

/-- What the next call gives after so many others. -/
def call (n : Nat) (c : Cursor) : Item :=
  (c.after n).next.1

theorem after_succ (n : Nat) (c : Cursor) : c.after (n + 1) = (c.after n).next.2 := by
  induction n generalizing c with
  | zero => rfl
  | succ n ih => exact ih c.next.2

/-! ### One call -/

/-- One call passes over `gap`, takes `taken` and leaves `rest`. It takes nothing at the end only,
where it gives the end mark; what it gives as another token is a lexeme of that kind. -/
structure Reads (c : Cursor) (gap taken rest : List Char) : Prop where
  text : c.rest = gap ++ taken ++ rest
  between : c.next.1.Gap gap (taken ++ rest)
  span : c.next.1.span =
    .ofRange (c.offset + byteSize gap) (c.offset + byteSize gap + byteSize taken)
  next : c.next.2 = ⟨rest, c.offset + byteSize gap + byteSize taken⟩
  ended : taken = [] → c.next.1 = .ok (.endOfText (c.offset + byteSize c.rest))
  unended : taken ≠ [] → c.next.1.isEnd = false
  lexeme : taken ≠ [] → ∀ token, c.next.1 = .ok token → Lexeme token.kind taken

theorem next_of_none {c : Cursor} (h : c.next? = none) :
    c.next = (.ok (.endOfText (Scan.skipTrivia c.offset c.rest).offset),
      ⟨[], (Scan.skipTrivia c.offset c.rest).offset⟩) := by
  rw [next, h]

theorem next_of_some {c : Cursor} {step : Item × Cursor} (h : c.next? = some step) :
    c.next = step := by
  rw [next, h]

theorem next?_of_skip {c : Cursor} {d : Char} {ds : List Char} {offset : Nat}
    (skipped : Scan.skipTrivia c.offset c.rest = ⟨d :: ds, offset⟩) :
    c.next? = some ((Scan.cut d ds).item (offset + byteSize (Scan.cut d ds).before),
      ⟨(Scan.cut d ds).rest,
        offset + byteSize (Scan.cut d ds).before + byteSize (Scan.cut d ds).taken⟩) := by
  rw [next?, skipped]
  rfl

theorem isEnd_of_next? {c c' : Cursor} {item : Item} (h : c.next? = some (item, c')) :
    item.isEnd = false := by
  cases skipped : Scan.skipTrivia c.offset c.rest with
  | mk rest offset =>
    cases rest with
    | nil =>
      rw [next?, skipped] at h
      cases h
    | cons d ds =>
      rw [next?_of_skip skipped] at h
      cases h
      exact Scan.Cut.isEnd_item ..

/-- The end mark is no item of a scan. -/
theorem isEnd_of_mem_items {c : Cursor} {item : Item} (h : item ∈ c.items) :
    item.isEnd = false := by
  fun_induction items c with
  | case1 => cases h
  | case2 c first c' found ih =>
    rcases List.mem_cons.1 h with rfl | later
    · exact isEnd_of_next? found
    · exact ih later

theorem reads_at_end {c : Cursor} {offset : Nat} {gap : List Char}
    (skipped : Scan.skipTrivia c.offset c.rest = ⟨[], offset⟩)
    (passed : Scan.Passed c.rest c.offset gap ⟨[], offset⟩) (trivia : Scan.Trivia gap []) :
    c.Reads gap [] [] := by
  have none : c.next? = none := by rw [next?, skipped]
  have mark := next_of_none none
  rw [skipped] at mark
  have whole : c.rest = gap := by rw [passed.whole, List.append_nil]
  have reached : offset = c.offset + byteSize gap := passed.offset
  constructor
  · rw [whole, List.append_nil, List.append_nil]
  · rw [mark]
    exact trivia
  · rw [mark, reached]
    rfl
  · rw [mark, reached]
    rfl
  · intro _
    rw [mark, whole, reached]
  · exact fun some => absurd rfl some
  · exact fun some => absurd rfl some

theorem reads_cut {c : Cursor} {d : Char} {ds gap : List Char} {offset : Nat}
    (skipped : Scan.skipTrivia c.offset c.rest = ⟨d :: ds, offset⟩)
    (passed : Scan.Passed c.rest c.offset gap ⟨d :: ds, offset⟩)
    (trivia : Scan.Trivia gap (d :: ds)) :
    c.Reads (gap ++ (Scan.cut d ds).before) (Scan.cut d ds).taken (Scan.cut d ds).rest := by
  have covers := Scan.cut_covers d ds
  have step := next?_of_skip skipped
  have ran := next_of_some step
  have start : offset + byteSize (Scan.cut d ds).before =
      c.offset + byteSize (gap ++ (Scan.cut d ds).before) := by
    have reached : offset = c.offset + byteSize gap := passed.offset
    rw [byteSize_append]
    omega
  constructor
  · rw [passed.whole, covers.whole]
    simp only [List.append_assoc]
  · rw [ran]
    exact covers.gap trivia _
  · rw [ran, ← start, Scan.Cut.span_item]
  · rw [ran, ← start]
  · exact fun none => absurd none covers.nonempty
  · intro _
    rw [ran]
    exact Scan.Cut.isEnd_item ..
  · intro _ token given
    rw [ran] at given
    exact Scan.Cut.lexeme_of_item given

theorem exists_reads (c : Cursor) : ∃ gap taken rest, c.Reads gap taken rest := by
  obtain ⟨gap, passed, trivia⟩ := Scan.skip_passes.1 c.offset c.rest
  generalize skipped : Scan.skipTrivia c.offset c.rest = d at passed trivia
  obtain ⟨rest, offset⟩ := d
  cases rest with
  | nil => exact ⟨_, _, _, reads_at_end skipped passed trivia⟩
  | cons d ds => exact ⟨_, _, _, reads_cut skipped passed trivia⟩

/-! ### Any number of calls -/

/-- A call within a source: what was read before it, the gap, the text that it takes, and the rest.
The span of its item is exact, and the next call resumes where it stops. -/
structure Within (c : Cursor) (source : String) (before gap taken rest : List Char) : Prop where
  whole : source.toList = before ++ gap ++ taken ++ rest
  starts : c = ⟨gap ++ taken ++ rest, byteSize before⟩
  between : c.next.1.Gap gap (taken ++ rest)
  start : c.next.1.span.start.toNat = byteSize (before ++ gap)
  stop : c.next.1.span.stop.toNat = byteSize (before ++ gap ++ taken)
  covered : c.next.1.span.text? source = some (String.ofList taken)
  resumes : c.next.2 = ⟨rest, c.next.1.span.stop.toNat⟩
  nonempty : taken = [] ↔ c.next.1.isEnd = true
  ended : c.next.1.isEnd = true → c.next.1 = .ok (.endOfText source.utf8ByteSize)

/-- The cursor stands between two characters of the source. -/
def Stands (c : Cursor) (source : String) : Prop :=
  ∃ before, source.toList = before ++ c.rest ∧ c.offset = byteSize before

theorem stands_ofSource (source : String) : (ofSource source).Stands source :=
  ⟨[], rfl, rfl⟩

/-- What one call reads, in a source that is short enough for its offsets. -/
theorem Reads.within {c : Cursor} {source : String} {before gap taken rest : List Char}
    (reads : c.Reads gap taken rest) (small : source.utf8ByteSize < UInt32.size)
    (whole : source.toList = before ++ c.rest) (offset : c.offset = byteSize before) :
    c.Within source before gap taken rest := by
  have parts : source.toList = before ++ gap ++ taken ++ rest := by
    rw [whole, reads.text]
    simp only [List.append_assoc]
  have size : source.utf8ByteSize =
      byteSize before + byteSize gap + byteSize taken + byteSize rest := by
    rw [← byteSize_toList, parts]
    simp only [byteSize_append]
  have bound : byteSize before + byteSize gap + byteSize taken < UInt32.size := by omega
  have start : c.next.1.span.start.toNat = byteSize (before ++ gap) := by
    rw [reads.span, offset, Span.toNat_start_ofRange (by omega), byteSize_append]
  have stop : c.next.1.span.stop.toNat = byteSize (before ++ gap ++ taken) := by
    rw [reads.span, offset, Span.toNat_stop_ofRange (by omega) bound, byteSize_append,
      byteSize_append]
  have mark (none : taken = []) : c.next.1 = .ok (.endOfText source.utf8ByteSize) := by
    rw [reads.ended none, size, reads.text, offset]
    simp only [byteSize_append, Nat.add_assoc]
  have nonempty : taken = [] ↔ c.next.1.isEnd = true := by
    refine ⟨fun none => by rw [mark none]; rfl, fun ended => ?_⟩
    apply Classical.byContradiction
    intro some
    exact absurd ended (by rw [reads.unended some]; exact Bool.false_ne_true)
  refine ⟨parts, ?_, reads.between, start, stop, Span.text?_of_parts parts start stop, ?_, nonempty,
    fun ended => mark (nonempty.2 ended)⟩
  · rw [← reads.text, ← offset]
  · rw [reads.next, stop, offset, byteSize_append, byteSize_append]

theorem exists_within {c : Cursor} {source : String} (small : source.utf8ByteSize < UInt32.size)
    (stands : c.Stands source) :
    ∃ before gap taken rest, c.Within source before gap taken rest := by
  obtain ⟨before, whole, offset⟩ := stands
  obtain ⟨gap, taken, rest, reads⟩ := c.exists_reads
  exact ⟨before, gap, taken, rest, reads.within small whole offset⟩

theorem Within.stands {c : Cursor} {source : String} {before gap taken rest : List Char}
    (h : c.Within source before gap taken rest) : c.next.2.Stands source := by
  refine ⟨before ++ gap ++ taken, ?_, ?_⟩
  · rw [h.resumes, h.whole]
  · rw [h.resumes, h.stop]

theorem stands_after {source : String} (small : source.utf8ByteSize < UInt32.size) (n : Nat) :
    ((ofSource source).after n).Stands source := by
  induction n with
  | zero => exact stands_ofSource source
  | succ n ih =>
    obtain ⟨before, gap, taken, rest, within⟩ := exists_within small ih
    rw [after_succ]
    exact within.stands

/-- The text at the span of a token is a lexeme of the token's kind. -/
theorem lexeme_of_next? {c c' : Cursor} {source : String} {token : Token}
    (small : source.utf8ByteSize < UInt32.size) (stands : c.Stands source)
    (h : c.next? = some (.ok token, c')) :
    Lexeme token.kind (token.lexeme source).toList := by
  obtain ⟨before, whole, offset⟩ := stands
  obtain ⟨gap, taken, rest, reads⟩ := c.exists_reads
  have within := reads.within small whole offset
  have given : c.next.1 = .ok token := by rw [next_of_some h]
  have some : taken ≠ [] := by
    intro none
    have ended := within.nonempty.1 none
    rw [given, isEnd_of_next? h] at ended
    cases ended
  have covered : token.span.text? source = .some (String.ofList taken) := by
    have covered := within.covered
    rwa [given] at covered
  rw [Token.lexeme, covered, Option.getD_some, String.toList_ofList]
  exact reads.lexeme some token given

theorem lexeme_of_mem_items {c : Cursor} {source : String} {token : Token}
    (small : source.utf8ByteSize < UInt32.size) (stands : c.Stands source)
    (h : .ok token ∈ c.items) : Lexeme token.kind (token.lexeme source).toList := by
  fun_induction items c with
  | case1 => cases h
  | case2 c item c' found ih =>
    rcases List.mem_cons.1 h with rfl | later
    · exact lexeme_of_next? small stands found
    · obtain ⟨before, gap, taken, rest, within⟩ := exists_within small stands
      have next := within.stands
      rw [next_of_some found] at next
      exact ih next later

/-- The offset never goes back. -/
theorem offset_after_le {source : String} (small : source.utf8ByteSize < UInt32.size) {m n : Nat}
    (le : m ≤ n) : ((ofSource source).after m).offset ≤ ((ofSource source).after n).offset := by
  induction le with
  | refl => exact Nat.le_refl _
  | @step n _ ih =>
    obtain ⟨before, gap, taken, rest, within⟩ := exists_within small (stands_after small n)
    have here : ((ofSource source).after n).offset = byteSize before := by rw [within.starts]
    have next : ((ofSource source).after (n + 1)).offset =
        byteSize before + byteSize gap + byteSize taken := by
      rw [after_succ, within.resumes, within.stop, byteSize_append, byteSize_append]
    calc ((ofSource source).after m).offset ≤ byteSize before := here ▸ ih
      _ ≤ ((ofSource source).after (n + 1)).offset := by rw [next]; omega

/-- Reading comes to its end, and the calls up to there give the items of the scan. -/
theorem exists_last (c : Cursor) : ∃ last ≤ c.rest.length, (c.after last).next? = none ∧
    (∀ n < last, (c.call n).isEnd = false) ∧ c.items = (List.range last).map (call · c) := by
  fun_induction items c with
  | case1 c none => exact ⟨0, Nat.zero_le _, none, fun n lt => absurd lt (Nat.not_lt_zero n), rfl⟩
  | case2 c item c' found ih =>
    obtain ⟨last, bound, none, unended, listed⟩ := ih
    have ran := next_of_some found
    have later (n : Nat) : c.call (n + 1) = c'.call n := by
      rw [call, after, ran, call]
    refine ⟨last + 1, ?_, ?_, ?_, ?_⟩
    · have shorter := next?_shorter found
      omega
    · rw [after, ran]
      exact none
    · intro n lt
      cases n with
      | zero =>
        rw [call, after, ran]
        exact isEnd_of_next? found
      | succ n =>
        rw [later]
        exact unended n (by omega)
    · have first : c.call 0 = item := by rw [call, after, ran]
      rw [List.range_succ_eq_map, List.map_cons, List.map_map, first, listed]
      congr 1
      exact List.map_congr_left fun n _ => (later n).symm

/-- At the end, reading stays there. -/
theorem next?_after_none {c : Cursor} (h : c.next? = none) : c.next.2.next? = none := by
  rw [next_of_none h]
  rfl

end Cursor

open Cursor in
/-- Reading a source item by item comes to the end mark, within as many calls as there are
characters and one, and stays there; the items up to there are those of the scan. Each call starts
where the last one stopped and takes a text of its own, after a gap. -/
theorem calls_cover_source (source : String) (small : source.utf8ByteSize < UInt32.size) :
    (∃ last ≤ source.length,
      (∀ n < last, ((ofSource source).call n).isEnd = false) ∧
      (∀ n ≥ last, (ofSource source).call n = .ok (.endOfText source.utf8ByteSize)) ∧
      Stream.ofSource source =
        ⟨(List.range last).map (call · (ofSource source)), .endOfText source.utf8ByteSize⟩) ∧
    (∀ n, ∃ before gap taken rest,
      ((ofSource source).after n).Within source before gap taken rest) ∧
    ∀ m n, m < n →
      ((ofSource source).call m).span.stop ≤ ((ofSource source).call n).span.start := by
  have each (n : Nat) := exists_within small (stands_after small n)
  refine ⟨?_, each, ?_⟩
  · obtain ⟨last, bound, none, unended, listed⟩ := exists_last (ofSource source)
    have stays (n : Nat) (ge : last ≤ n) : ((ofSource source).after n).next? = .none := by
      induction ge with
      | refl => exact none
      | step _ ih =>
        rw [after_succ]
        exact next?_after_none ih
    refine ⟨last, ?_, unended, ?_, ?_⟩
    · rw [← String.length_toList]
      exact bound
    · intro n ge
      obtain ⟨before, gap, taken, rest, within⟩ := each n
      apply within.ended
      rw [next_of_none (stays n ge)]
      rfl
    · rw [Stream.ofSource, listed]
  · intro m n lt
    obtain ⟨before, gap, taken, rest, within⟩ := each n
    obtain ⟨_, _, _, _, earlier⟩ := each m
    have resumed : ((ofSource source).after (m + 1)).offset =
        ((ofSource source).call m).span.stop.toNat := by
      rw [after_succ, earlier.resumes]
      rfl
    have here : ((ofSource source).after n).offset = byteSize before := by rw [within.starts]
    have order := offset_after_le small (m := m + 1) lt
    have start : ((ofSource source).call n).span.start.toNat = byteSize (before ++ gap) :=
      within.start
    rw [UInt32.le_iff_toNat_le, start, byteSize_append]
    omega

theorem calls_cover_brokenString :
    "x// one\n \"a\\q\" 2".utf8ByteSize < UInt32.size ∧
    (Cursor.ofSource "x// one\n \"a\\q\" 2").call 1 = .error ⟨.unknownEscape 'q', ⟨11, 2⟩⟩ ∧
    (∃ before gap taken rest, ((Cursor.ofSource "x// one\n \"a\\q\" 2").after 1).Within
      "x// one\n \"a\\q\" 2" before gap taken rest) ∧
    ((Cursor.ofSource "x// one\n \"a\\q\" 2").call 1).span.stop ≤
      ((Cursor.ofSource "x// one\n \"a\\q\" 2").call 2).span.start := by
  have small : "x// one\n \"a\\q\" 2".utf8ByteSize < UInt32.size := by decide
  obtain ⟨_, each, ordered⟩ := calls_cover_source _ small
  exact ⟨small, rfl, each 1, ordered 1 2 (by decide)⟩

end ExprLang
