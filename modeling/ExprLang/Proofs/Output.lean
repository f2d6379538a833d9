import ExprLang.Proofs.ParallelEvaluation
import ExprLang.Session

set_option autoImplicit false

/-!
Where a program prints to does not matter to it. Every run hands the same pieces, one after the
other, to whatever sink there is, and comes to the same end. What a sink with little room takes, and
what it fails to take, can be told from the pieces alone.
-/

namespace ExprLang

/-- Keeps the pieces apart, in the order in which they come. -/
structure Transcript where
  pieces : List String

instance : Sink Transcript where
  write piece t := ⟨t.pieces ++ [piece]⟩

def Transcript.empty : Transcript := ⟨[]⟩

/-- The sink after some more pieces. -/
def Sink.writeAll {σ : Type} [Sink σ] (pieces : List String) (sink : σ) : σ :=
  pieces.foldl (fun sink piece => Sink.write piece sink) sink

theorem Sink.writeAll_cons {σ : Type} [Sink σ] (piece : String) (pieces : List String)
    (sink : σ) : writeAll (piece :: pieces) sink = writeAll pieces (Sink.write piece sink) := rfl

theorem Sink.writeAll_concat {σ : Type} [Sink σ] (pieces : List String) (piece : String)
    (sink : σ) : writeAll (pieces ++ [piece]) sink = Sink.write piece (writeAll pieces sink) := by
  simp only [writeAll, List.foldl_append, List.foldl_cons, List.foldl_nil]

namespace Machine

variable {σ τ : Type}

/-- The same state, with another sink. -/
def onto (m : Machine σ) (sink : τ) : Machine τ :=
  ⟨m.scopes, sink, m.errors, m.depth⟩

/-- The pieces of text that a run hands to its sink. -/
def printed (rounds : Nat) (m : Machine σ) (p : Program) : List String :=
  ((m.onto Transcript.empty).runProgram rounds p).2.sink.pieces

variable [Sink τ]

/-- A machine and its transcript: the sink has come from `start` to where it is by the pieces. -/
def Transcribes (start : τ) (m : Machine Transcript) (n : Machine τ) : Prop :=
  n = m.onto (Sink.writeAll m.sink.pieces start)

theorem follows_transcribes (start : τ) : EvalM.Follows (Transcribes start) Eq where
  scopes same := by rw [same]; rfl
  depth same := by rw [same]; rfl
  rescoped same _ := by rw [same]; rfl
  moved same _ := by rw [same]; rfl
  noted same _ _ _ place := by rw [same, place]; rfl
  wrote {m n} same piece := by
    rw [same]
    simp only [Transcribes, onto, Sink.write, Sink.writeAll_concat]

/-- Onto whatever sink a program prints, the run has the same end, and the sink has been given the
same pieces. -/
theorem runProgram_onto (rounds : Nat) (m : Machine σ) (p : Program) (start : τ) :
    (m.onto start).runProgram rounds p =
      (((m.onto Transcript.empty).runProgram rounds p).1,
        ((m.onto Transcript.empty).runProgram rounds p).2.onto
          (Sink.writeAll (m.printed rounds p) start)) := by
  have follows := follows_transcribes start
  have ends := Expr.parallel_evalStatements follows (EvalM.inStep_plain follows) (f := id)
    (fun _ => rfl) rounds p (m.onto Transcript.empty) (m.onto start) rfl
  rw [Expr.respanAll_id] at ends
  unfold printed runProgram Program.eval outcome
  generalize EStateM.run (Expr.evalStatements rounds p) (m.onto Transcript.empty) = left at ends ⊢
  generalize EStateM.run (Expr.evalStatements rounds p) (m.onto start) = right at ends ⊢
  cases ends with
  | ok same => rw [same]
  | out same => rw [same]

end Machine

/-! ### What the sinks make of the pieces -/

namespace Text

theorem toList_loop (bytes : ByteArray) (i : Nat) (front : List UInt8) :
    ByteArray.toList.loop bytes i front = front.reverse ++ bytes.data.toList.drop i := by
  fun_induction ByteArray.toList.loop bytes i front with
  | case1 i front inside ih =>
    have inside : i < bytes.data.size := by simpa using inside
    have inside' : i < bytes.data.toList.length := by simpa using inside
    have first : bytes.get! i = bytes.data.toList[i] := by
      rw [Array.getElem_toList]
      exact getElem!_pos bytes.data i inside
    rw [ih, List.drop_eq_getElem_cons inside', List.reverse_cons, List.append_assoc, first]
    rfl
  | case2 i front outside =>
    rw [List.drop_eq_nil_of_le (by simpa using outside), List.append_nil]

theorem toList_toUTF8 (s : String) : s.toUTF8.toList = s.toByteArray.data.toList := by
  rw [String.toUTF8_eq_toByteArray, ByteArray.toList, toList_loop]
  rfl

theorem toList_toUTF8_append (s t : String) :
    (s ++ t).toUTF8.toList = s.toUTF8.toList ++ t.toUTF8.toList := by
  simp only [toList_toUTF8, String.toByteArray_append, ByteArray.data_append, Array.toList_append]

theorem length_toUTF8 (s : String) : s.toUTF8.toList.length = s.utf8ByteSize := by
  rw [toList_toUTF8, Array.length_toList, ByteArray.size_data, String.size_toByteArray]

theorem join_concat (pieces : List String) (piece : String) :
    String.join (pieces ++ [piece]) = String.join pieces ++ piece := by
  rw [String.join_append, String.join_cons, String.join_nil, String.append_empty]

end Text

theorem Buffer.text_writeAll (pieces : List String) (buffer : Buffer) :
    (Sink.writeAll pieces buffer).text = buffer.text ++ String.join pieces := by
  induction pieces generalizing buffer with
  | nil => rw [String.join_nil, String.append_empty]; rfl
  | cons piece pieces ih =>
    have first : (Sink.write piece buffer).text = buffer.text ++ piece := rfl
    rw [Sink.writeAll_cons, ih, first, String.join_cons, String.append_assoc]

/-- How many of the pieces are not empty and end past the first `limit` bytes of all the text. -/
def overruns (limit : Nat) (pieces : List String) : Nat :=
  pieces.zipIdx.countP fun entry =>
    entry.1 ≠ "" && limit < (String.join (pieces.take (entry.2 + 1))).utf8ByteSize

example : overruns 2 ["a", "bc", "", "\n"] = 2 := by decide

theorem overruns_concat (limit : Nat) (pieces : List String) (piece : String) :
    overruns limit (pieces ++ [piece]) = overruns limit pieces +
      if piece ≠ "" ∧ limit < (String.join pieces ++ piece).utf8ByteSize then 1 else 0 := by
  have earlier : ∀ entry ∈ pieces.zipIdx,
      (pieces ++ [piece]).take (entry.2 + 1) = pieces.take (entry.2 + 1) := by
    intro entry inside
    have bound := List.snd_lt_of_mem_zipIdx inside
    exact List.take_append_of_le_length (by omega)
  have whole : (pieces ++ [piece]).take (pieces.length + 1) = pieces ++ [piece] :=
    List.take_of_length_le (by simp)
  rw [overruns, List.zipIdx_append, List.countP_append]
  congr 1
  · refine List.countP_congr fun entry inside => ?_
    rw [earlier entry inside]
  · simp [whole]

namespace LimitedWriter

/-- The state of a writer that had room for `limit` bytes, after the text in pieces. -/
structure After (limit : Nat) (pieces : List String) (w : LimitedWriter) : Prop where
  room : w.room = limit - (String.join pieces).utf8ByteSize
  taken : w.taken = (String.join pieces).toUTF8.toList.take limit
  failures : w.failures = overruns limit pieces

/-- One more piece. -/
theorem After.write {limit : Nat} {pieces : List String} {w : LimitedWriter}
    (h : After limit pieces w) (piece : String) :
    After limit (pieces ++ [piece]) (Sink.write piece w) := by
  have size : (String.join (pieces ++ [piece])).utf8ByteSize =
      (String.join pieces).utf8ByteSize + piece.utf8ByteSize := by
    rw [Text.join_concat, String.utf8ByteSize_append]
  constructor
  · have left : (Sink.write piece w).room = w.room - piece.utf8ByteSize := by
      rw [← Text.length_toUTF8]
      rfl
    rw [left, h.room, size]
    omega
  · have more : (Sink.write piece w).taken = w.taken ++ piece.toUTF8.toList.take w.room := rfl
    rw [more, h.taken, h.room, Text.join_concat, Text.toList_toUTF8_append, List.take_append,
      Text.length_toUTF8]
  · have counted : (Sink.write piece w).failures =
        w.failures + if piece.utf8ByteSize ≤ w.room then 0 else 1 := by
      rw [← Text.length_toUTF8]
      rfl
    have empty : piece = "" ↔ piece.utf8ByteSize = 0 := String.utf8ByteSize_eq_zero_iff.symm
    rw [counted, h.failures, h.room, overruns_concat, String.utf8ByteSize_append]
    congr 1
    split
    next fits => rw [if_neg (by rw [ne_eq, empty]; omega)]
    next big => rw [if_pos (by rw [ne_eq, empty]; omega)]

theorem After.writeAll {limit : Nat} {earlier : List String} {w : LimitedWriter}
    (h : After limit earlier w) (pieces : List String) :
    After limit (earlier ++ pieces) (Sink.writeAll pieces w) := by
  induction pieces generalizing earlier w with
  | nil => rwa [List.append_nil]
  | cons piece pieces ih =>
    rw [Sink.writeAll_cons, List.append_cons]
    exact ih (h.write piece)

theorem after_withRoom (limit : Nat) : After limit [] (withRoom limit) where
  room := rfl
  taken := by rw [String.join_nil, Text.toList_toUTF8]; exact List.take_nil.symm
  failures := rfl

end LimitedWriter

/-- Printing to a writer with room for `limit` bytes instead of a buffer changes nothing of a run.
The writer has the first bytes of the buffered text, as many as fit, and has failed once for each
piece that goes beyond them. -/
theorem run_onto_limited_writer {σ : Type} (m : Machine σ) (rounds limit : Nat) (p : Program) :
    let buffered := (m.onto Buffer.empty).runProgram rounds p
    let limited := (m.onto (LimitedWriter.withRoom limit)).runProgram rounds p
    let bytes := buffered.2.sink.text.toUTF8.toList
    limited.1 = buffered.1 ∧ limited.2.errors = buffered.2.errors ∧
      limited.2.scopes = buffered.2.scopes ∧
      limited.2.sink.taken = bytes.take (min limit bytes.length) ∧
      buffered.2.sink.text = String.join (m.printed rounds p) ∧
      limited.2.sink.failures = overruns limit (m.printed rounds p) := by
  have written := (LimitedWriter.after_withRoom limit).writeAll (m.printed rounds p)
  intro buffered limited bytes
  have left : buffered.2.sink.text = String.join (m.printed rounds p) := by
    unfold buffered
    rw [Machine.runProgram_onto]
    exact (Buffer.text_writeAll _ _).trans String.empty_append
  have right : limited.2.sink = Sink.writeAll (m.printed rounds p) (.withRoom limit) := by
    unfold limited
    rw [Machine.runProgram_onto]
    rfl
  have taken : limited.2.sink.taken = bytes.take (min limit bytes.length) := by
    rw [right, written.taken, List.nil_append, ← left, List.take_eq_take_min]
  refine ⟨?_, ?_, ?_, taken, left, ?_⟩
  · unfold limited buffered
    rw [Machine.runProgram_onto, Machine.runProgram_onto _ _ _ Buffer.empty]
  · unfold limited buffered
    rw [Machine.runProgram_onto, Machine.runProgram_onto _ _ _ Buffer.empty]
    rfl
  · unfold limited buffered
    rw [Machine.runProgram_onto, Machine.runProgram_onto _ _ _ Buffer.empty]
    rfl
  · rw [right, written.failures, List.nil_append]

end ExprLang
