import ExprLang.Proofs.Spans
import ExprLang.Report

set_option autoImplicit false

/-!
The line that a report points at, and the line that an error in one line names. Both come from the
same span, but the one counts the characters of the source and the other its bytes; and only for the
latter does a newline at the very end start another line. So they agree as long as only characters
of one byte stand before the trouble, except at the end of a source that ends in a newline.
-/

namespace ExprLang

open Text

/-! ### Lines of a source -/

namespace Text

theorem lt_of_mem_laterLineStarts {offset n : Nat} {cs : List Char}
    (h : n ∈ laterLineStarts offset cs) : offset < n := by
  induction cs generalizing offset with
  | nil => cases h
  | cons c cs ih =>
    have wide := c.utf8Size_pos
    have later (inside : n ∈ laterLineStarts (offset + c.utf8Size) cs) : offset < n :=
      Nat.lt_trans (Nat.lt_add_of_pos_right wide) (ih inside)
    rw [laterLineStarts] at h
    split at h
    · rcases List.mem_cons.1 h with rfl | inside
      · exact Nat.lt_add_of_pos_right wide
      · exact later inside
    · exact later h

/-- Each newline that has been passed has started a line. -/
theorem length_filter_laterLineStarts (offset : Nat) (front tail : List Char) :
    ((laterLineStarts offset (front ++ tail)).filter (· ≤ offset + byteSize front)).length =
      front.count '\n' := by
  induction front generalizing offset with
  | nil =>
    have none : (laterLineStarts offset tail).filter (· ≤ offset) = [] := by
      refine List.filter_eq_nil_iff.2 fun n inside => ?_
      rw [decide_eq_true_eq]
      exact Nat.not_le_of_lt (lt_of_mem_laterLineStarts inside)
    exact congrArg List.length none
  | cons c cs ih =>
    have passed := ih (offset + c.utf8Size)
    rw [Nat.add_assoc] at passed
    rw [List.cons_append, laterLineStarts, byteSize_cons, List.count_cons]
    by_cases newline : c = '\n'
    · have here : offset + c.utf8Size ≤ offset + (c.utf8Size + byteSize cs) := by omega
      rw [if_pos newline, List.filter_cons, if_pos (decide_eq_true here), List.length_cons, passed,
        if_pos (beq_iff_eq.2 newline)]
    · rw [if_neg newline, passed, if_neg (mt beq_iff_eq.1 newline), Nat.add_zero]

theorem lineAt_of_split {source : String} {front tail : List Char}
    (whole : source.toList = front ++ tail) :
    lineAt source (byteSize front) = front.count '\n' + 1 := by
  have passed := length_filter_laterLineStarts 0 front tail
  rw [Nat.zero_add] at passed
  rw [lineAt, lineStarts, whole, List.filter_cons,
    if_pos (decide_eq_true (Nat.zero_le _)), List.length_cons, passed]

theorem length_le_byteSize (cs : List Char) : cs.length ≤ byteSize cs := by
  induction cs with
  | nil => exact Nat.le_refl 0
  | cons c cs ih =>
    have := c.utf8Size_pos
    rw [List.length_cons, byteSize_cons]
    omega

theorem byteSize_eq_length {cs : List Char} (narrow : ∀ c ∈ cs, c.utf8Size = 1) :
    byteSize cs = cs.length := by
  induction cs with
  | nil => rfl
  | cons c cs ih =>
    rw [List.forall_mem_cons] at narrow
    rw [byteSize_cons, List.length_cons, narrow.1, ih narrow.2, Nat.add_comm]

end Text

/-! ### Lines of a report -/

namespace Report

section Newlines

variable {c d : Char} {cs : List Char}

theorem laterStarts_cons_cons (newline : isTerminator c = true → c = '\n') (offset : Nat) :
    laterStarts offset (c :: d :: cs) =
      if c = '\n' then (offset + 1) :: laterStarts (offset + 1) (d :: cs)
      else laterStarts (offset + 1) (d :: cs) := by
  have feed : c ≠ '\r' := by
    rintro rfl
    exact absurd (newline rfl) (by decide)
  rw [laterStarts.eq_3 _ _ _ fun _ eq => absurd eq feed]
  by_cases ends : c = '\n'
  · rw [if_pos ends, if_pos]
    rw [ends]
    rfl
  · rw [if_neg ends, if_neg]
    rw [Bool.and_eq_true]
    exact fun both => ends (newline both.1)

theorem laterStarts_singleton (offset : Nat) : laterStarts offset [c] = [] := by
  rw [laterStarts.eq_3 _ _ _ fun _ _ eq => by cases eq]
  rw [List.isEmpty_nil, Bool.not_true, Bool.and_false, if_neg Bool.false_ne_true]
  rfl

theorem lt_of_mem_laterStarts (newlines : ∀ c ∈ cs, isTerminator c = true → c = '\n')
    {offset n : Nat} (h : n ∈ laterStarts offset cs) : offset < n := by
  induction cs generalizing offset with
  | nil => cases h
  | cons c cs ih =>
    rw [List.forall_mem_cons] at newlines
    cases cs with
    | nil =>
      rw [laterStarts_singleton] at h
      cases h
    | cons d cs =>
      rw [laterStarts_cons_cons newlines.1] at h
      split at h
      · rcases List.mem_cons.1 h with rfl | inside
        · exact Nat.lt_succ_self offset
        · exact Nat.lt_of_succ_lt (ih newlines.2 inside)
      · exact Nat.lt_of_succ_lt (ih newlines.2 h)

/-- Each newline that has been passed has started a line, unless it is the last character. -/
theorem length_takeWhile_laterStarts (newlines : ∀ c ∈ cs, isTerminator c = true → c = '\n')
    (offset n : Nat) :
    ((laterStarts offset cs).takeWhile (· ≤ offset + n)).length =
      (cs.dropLast.take n).count '\n' := by
  induction cs generalizing offset n with
  | nil =>
    rw [List.dropLast_nil, List.take_nil]
    rfl
  | cons c cs ih =>
    cases n with
    | zero =>
      cases starts : laterStarts offset (c :: cs) with
      | nil => rfl
      | cons first rest =>
        have inside : first ∈ laterStarts offset (c :: cs) := by
          rw [starts]
          exact List.mem_cons_self ..
        have past := lt_of_mem_laterStarts newlines inside
        rw [List.takeWhile_cons, if_neg (by rw [decide_eq_true_eq]; omega)]
        rfl
    | succ n =>
      rw [List.forall_mem_cons] at newlines
      cases cs with
      | nil => rw [laterStarts_singleton]; rfl
      | cons d cs =>
        have passed := ih newlines.2 (offset + 1) n
        rw [Nat.add_assoc, Nat.add_comm 1 n] at passed
        rw [laterStarts_cons_cons newlines.1, List.dropLast_cons_cons, List.take_succ_cons,
          List.count_cons]
        by_cases ends : c = '\n'
        · have here : offset + 1 ≤ offset + (n + 1) := by omega
          rw [if_pos ends, List.takeWhile_cons, if_pos (decide_eq_true here), List.length_cons,
            passed, if_pos (beq_iff_eq.2 ends)]
        · rw [if_neg ends, passed, if_neg (mt beq_iff_eq.1 ends), Nat.add_zero]

end Newlines

/-- The line of a report, if the report finds a place. -/
theorem line_of_place? {source : String} (span : Span)
    (newlines : ∀ c ∈ source.toList, isTerminator c = true → c = '\n') :
    (place? source span).map Place.line =
      if span.start.toNat ≤ source.length ∧ (span.length ≠ 0 → span.stop.toNat ≤ source.length + 1)
      then some ((source.toList.dropLast.take span.start.toNat).count '\n' + 1) else none := by
  have passed := length_takeWhile_laterStarts newlines 0 span.start.toNat
  rw [Nat.zero_add] at passed
  rw [place?]
  dsimp only
  split
  next outside =>
    rw [if_neg]
    · rfl
    · rintro ⟨start, stop⟩
      rcases outside with past | ⟨some, past⟩
      · omega
      · have := stop some
        omega
  next within =>
    rw [if_pos, Option.map_some, passed]
    refine ⟨by omega, fun some => ?_⟩
    have : ¬ (source.length < span.stop.toNat - 1) := fun past => within (.inr ⟨some, past⟩)
    omega

end Report

/-! ### Reported trouble -/

namespace Located

/-- Trouble that is reported for a source: it cannot be read, or the program that is read from it is
checked or run, after whatever has been checked and run before. -/
inductive Reported (source : String) : {ε : Type} → Located ε → Prop where
  | reading {e : Located SyntaxError} (failed : Program.parse source = .error e) :
    Reported source e
  | checking {p : Program} {c : Checker} {added : List (Located TypeError)} {e : Located TypeError}
    (parsed : Program.parse source = .ok p)
    (errors : (c.checkProgram p).2.errors.toList = c.errors.toList ++ added) (inside : e ∈ added) :
    Reported source e
  | running {σ : Type} [Sink σ] {p : Program} {rounds : Nat} {m : Machine σ}
    {added : List (Located RuntimeError)} {e : Located RuntimeError}
    (parsed : Program.parse source = .ok p)
    (errors : (m.runProgram rounds p).2.errors.toList = m.errors.toList ++ added)
    (inside : e ∈ added) : Reported source e

/-- The report has a place, and this is on the line that the trouble in one line names. -/
def PointsAtLine {ε : Type} [Diagnostic ε] (source : String) (e : Located ε) : Prop :=
  (e.report source).place.map Report.Place.line = some (e.line source)

theorem Adds.of_append {ε : Type} {Q : Span → Prop} {before after : Array (Located ε)}
    (h : Adds Q before after) {added : List (Located ε)}
    (errors : after.toList = before.toList ++ added) {e : Located ε} (inside : e ∈ added) :
    Q e.span := by
  obtain ⟨added', eq, places⟩ := h
  rw [eq, List.append_cancel_left_eq] at errors
  rw [← errors] at inside
  exact places e inside

section Source

variable {source : String} (small : source.utf8ByteSize < UInt32.size)

include small

theorem Reported.inside {ε : Type} {e : Located ε} (h : Reported source e) :
    e.span.Inside source := by
  have blames {p : Program} (parsed : Program.parse source = .ok p) :
      ∀ s ∈ p, s.Blames (Span.Inside source) := by
    obtain ⟨hi, row⟩ := Program.row_of_parse small parsed
    exact fun s inside => (row.of_mem (List.mem_map_of_mem inside)).1.blames
  cases h with
  | reading failed => exact (Program.laid_of_parse failed).inside small
  | @checking p c added _ parsed errors inside =>
    have adds := Program.obeys_check CheckM.rules_adds (blames parsed) c
    exact Adds.of_append adds errors inside
  | @running σ _ p rounds m added _ parsed errors inside =>
    have adds : Adds (Span.Inside source) m.errors (m.runProgram rounds p).2.errors :=
      Machine.outcome_of_ends (Program.obeys_eval EvalM.rules_adds (blames parsed) m)
    exact Adds.of_append adds errors inside

end Source

variable {ε : Type} [Diagnostic ε] {source : String} {e : Located ε}

/-- The two lines are the same if the report finds a place and passes as many newlines on the way
there as stand in front of the trouble. -/
theorem pointsAtLine_iff {front tail : List Char} (whole : source.toList = front ++ tail)
    (start : byteSize front = e.span.start.toNat)
    (newlines : ∀ c ∈ source.toList, Report.isTerminator c = true → c = '\n') :
    e.PointsAtLine source ↔ e.span.start.toNat ≤ source.length ∧
      (e.span.length ≠ 0 → e.span.stop.toNat ≤ source.length + 1) ∧
      (source.toList.dropLast.take e.span.start.toNat).count '\n' = front.count '\n' := by
  have line : e.line source = front.count '\n' + 1 := by
    rw [Located.line, ← start, lineAt_of_split whole]
  rw [PointsAtLine, report, Report.line_of_place? e.span newlines, line, ← and_assoc]
  split
  next within => rw [Option.some_inj, Nat.add_right_cancel_iff, and_iff_right within]
  next outside => exact iff_of_false (fun eq => by cases eq) fun h => outside h.1

/-- After characters of one byte, the place is where the trouble starts. Only a newline at the very
end of the source can be missed. -/
theorem pointsAtLine_iff_of_narrow {front tail : List Char} (whole : source.toList = front ++ tail)
    (start : byteSize front = e.span.start.toNat) (inside : e.span.Inside source)
    (newlines : ∀ c ∈ source.toList, Report.isTerminator c = true → c = '\n')
    (narrow : ∀ c ∈ source.toList.take e.span.stop.toNat, c.utf8Size = 1) :
    e.PointsAtLine source ↔ (tail = [] → front.getLast? ≠ some '\n') := by
  have counted {before after : List Char} (whole : source.toList = before ++ after)
      (le : byteSize before ≤ e.span.stop.toNat) : byteSize before = before.length := by
    refine byteSize_eq_length fun c inside => narrow c ?_
    have short := Nat.le_trans (length_le_byteSize before) le
    rw [whole, List.take_append, List.take_of_length_le short]
    exact List.mem_append_left _ inside
  have size : source.toList.length = source.length := String.length_toList
  obtain ⟨before, after, split, stop⟩ := inside.stop
  have reach : before.length = e.span.stop.toNat :=
    (counted split (Nat.le_of_eq stop)).symm.trans stop
  have first : front.length = e.span.start.toNat :=
    (counted whole (Nat.le_trans (Nat.le_of_eq start) inside.ordered)).symm.trans start
  have past : e.span.stop.toNat ≤ source.length := by
    rw [← reach, ← size, split, List.length_append]
    exact Nat.le_add_right ..
  have ordered := inside.ordered
  rw [pointsAtLine_iff whole start newlines, and_iff_right (by omega),
    and_iff_right (fun _ => by omega), ← first, whole]
  cases tail with
  | nil =>
    rw [List.append_nil, List.take_of_length_le (by rw [List.length_dropLast]; omega)]
    rcases List.eq_nil_or_concat front with rfl | ⟨front, last, rfl⟩
    · exact iff_of_true rfl fun _ none => by cases none
    · rw [List.concat_eq_append, List.dropLast_concat, List.count_append, List.getLast?_concat,
        List.count_singleton]
      by_cases newline : last = '\n'
      · simp [newline]
      · simp [newline]
  | cons t ts =>
    rw [List.dropLast_append_cons, List.take_left]
    exact iff_of_true rfl fun none => by cases none

end Located

/-- Trouble that is reported for a source with newlines as its only ends of lines. The report points
at the line that the trouble in one line names exactly if the byte offsets of the span, taken as
numbers of characters, stay in the source and lead past as many newlines, not counting a newline at
the very end. After characters of one byte this is so, except at the end of a source that ends in a
newline. -/
theorem report_points_at_line_iff {ε : Type} [Diagnostic ε] {source : String}
    (small : source.utf8ByteSize < UInt32.size)
    (newlines : ∀ c ∈ source.toList, Report.isTerminator c = true → c = '\n')
    {e : Located ε} (reported : e.Reported source) :
    ∃ front tail, source.toList = front ++ tail ∧ byteSize front = e.span.start.toNat ∧
      (e.PointsAtLine source ↔ e.span.start.toNat ≤ source.length ∧
        (e.span.length ≠ 0 → e.span.stop.toNat ≤ source.length + 1) ∧
        (source.toList.dropLast.take e.span.start.toNat).count '\n' = front.count '\n') ∧
      ((∀ c ∈ source.toList.take e.span.stop.toNat, c.utf8Size = 1) →
        (e.PointsAtLine source ↔ (tail = [] → front.getLast? ≠ some '\n'))) := by
  have inside := reported.inside small
  obtain ⟨front, tail, whole, start⟩ := inside.start
  exact ⟨front, tail, whole, start, Located.pointsAtLine_iff whole start newlines,
    Located.pointsAtLine_iff_of_narrow whole start inside newlines⟩

/-- The name `x`, which is not known. -/
def unknownX (start : UInt32) : Located TypeError :=
  ⟨.identifierNotFound "x", ⟨start, 1⟩⟩

theorem report_points_at_second_line :
    (∀ c ∈ "1;\nx;".toList, Report.isTerminator c = true → c = '\n') ∧
    (unknownX 3).Reported "1;\nx;" ∧ (unknownX 3).PointsAtLine "1;\nx;" := by
  have newlines : ∀ c ∈ "1;\nx;".toList, Report.isTerminator c = true → c = '\n' := by
    have checked : "1;\nx;".toList.all (fun c => !Report.isTerminator c || c = '\n') = true := by
      decide
    intro c inside ends
    have here := List.all_eq_true.1 checked c inside
    rw [ends] at here
    exact of_decide_eq_true here
  have narrow : ("1;\nx;".toList.take 4).all (·.utf8Size = 1) = true := by decide
  have parsed : Program.parse "1;\nx;" =
      .ok [.literal (.int 1) ⟨0, 1⟩, .name ⟨"x", ⟨3, 1⟩⟩ ⟨3, 1⟩] := by with_unfolding_all rfl
  have reported : (unknownX 3).Reported "1;\nx;" :=
    .checking (c := .init) parsed (by with_unfolding_all rfl) (List.mem_singleton_self _)
  refine ⟨newlines, reported, ?_⟩
  obtain ⟨front, tail, whole, start, -, agrees⟩ :=
    report_points_at_line_iff (by decide) newlines reported
  refine (agrees fun c inside => of_decide_eq_true (List.all_eq_true.1 narrow c inside)).2 ?_
  rintro rfl
  rw [List.append_nil] at whole
  rw [← whole]
  decide

/-- Letters of two bytes before the trouble move the place to the next line, or out of the source;
and at the end of a source that ends in a newline, the place is on the line before. -/
theorem report_misses_line :
    ((unknownX 14).Reported "\"ééééé\"; x;\n1;2;" ∧ (unknownX 14).line "\"ééééé\"; x;\n1;2;" = 1 ∧
      ((unknownX 14).report "\"ééééé\"; x;\n1;2;").place = some ⟨2, 3⟩) ∧
    ((unknownX 14).Reported "\"ééééé\"; x;" ∧
      ((unknownX 14).report "\"ééééé\"; x;").place = none) ∧
    ∃ e : Located SyntaxError, e.Reported "1 +\n" ∧ e.line "1 +\n" = 2 ∧
      (e.report "1 +\n").place = some ⟨1, 5⟩ := by
  refine ⟨⟨?_, by decide, by decide⟩, ⟨?_, by decide⟩, ?_⟩
  · exact .checking (p := [.literal (.str "ééééé") ⟨0, 12⟩, .name ⟨"x", ⟨14, 1⟩⟩ ⟨14, 1⟩,
      .literal (.int 1) ⟨17, 1⟩, .literal (.int 2) ⟨19, 1⟩]) (c := .init)
      (by with_unfolding_all rfl) (by with_unfolding_all rfl) (List.mem_singleton_self _)
  · exact .checking (p := [.literal (.str "ééééé") ⟨0, 12⟩, .name ⟨"x", ⟨14, 1⟩⟩ ⟨14, 1⟩])
      (c := .init)
      (by with_unfolding_all rfl) (by with_unfolding_all rfl) (List.mem_singleton_self _)
  · exact ⟨⟨.unexpectedEof, ⟨4, 0⟩⟩, .reading (by with_unfolding_all rfl), by decide, by decide⟩

end ExprLang
