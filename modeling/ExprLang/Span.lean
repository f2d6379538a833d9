import ExprLang.Text.Bytes

set_option autoImplicit false

/-!
Stretches of source text. Offsets and lengths count bytes and are 32 bits wide, so they are exact
for sources shorter than 4 GiB and wrap beyond.
-/

namespace ExprLang

/-- The bytes of a source from `start` on, `length` of them. -/
structure Span where
  start : UInt32
  length : UInt32
  deriving DecidableEq, Inhabited

namespace Span

open Text

/-- The bytes from `start` up to, and without, `stop`; none if `stop` comes first. -/
def ofRange (start stop : Nat) : Span :=
  ⟨start.toUInt32, (stop - start).toUInt32⟩

/-- The offset just after the span. -/
def stop (s : Span) : UInt32 :=
  s.start + s.length

/-- The smallest span that covers both. -/
def merge (a b : Span) : Span :=
  ofRange (min a.start b.start).toNat (max a.stop b.stop).toNat

/-- The text that the span covers, if both its ends fall between characters of the source. -/
def text? (s : Span) (source : String) : Option String := do
  let (_, rest) ← Text.splitAt? s.start.toNat source.toList
  let (covered, _) ← Text.splitAt? (s.stop.toNat - s.start.toNat) rest
  if s.start ≤ s.stop then some (String.ofList covered) else none

theorem toNat_start_ofRange {start stop : Nat} (h : start < UInt32.size) :
    (ofRange start stop).start.toNat = start := by
  simp only [UInt32.size] at h
  simp [ofRange]
  omega

theorem toNat_stop_ofRange {start stop : Nat} (ordered : start ≤ stop) (h : stop < UInt32.size) :
    (ofRange start stop).stop.toNat = stop := by
  simp only [UInt32.size] at h
  simp [Span.stop, ofRange]
  omega

/-- Offsets start over after 4 GiB. -/
theorem ofRange_wraps {n : Nat} (full : n = UInt32.size) (start stop : Nat) :
    ofRange (n + start) (n + stop) = ofRange start stop := by
  have offset : (n + start).toUInt32 = start.toUInt32 := by
    apply UInt32.toNat_inj.1
    simp [full, UInt32.size]
  rw [ofRange, ofRange, offset, Nat.add_sub_add_left]

/-- The text that a span covers, if its ends are known. -/
theorem text?_of_parts {span : Span} {source : String} {before taken rest : List Char}
    (whole : source.toList = before ++ taken ++ rest) (start : span.start.toNat = byteSize before)
    (stop : span.stop.toNat = byteSize (before ++ taken)) :
    span.text? source = some (String.ofList taken) := by
  have front : splitAt? span.start.toNat source.toList = some (before, taken ++ rest) := by
    rw [start, whole, List.append_assoc, splitAt?_append]
  have covered : span.stop.toNat - span.start.toNat = byteSize taken := by
    rw [start, stop, byteSize_append]
    omega
  have ordered : span.start ≤ span.stop := by
    rw [UInt32.le_iff_toNat_le, start, stop, byteSize_append]
    omega
  simp only [text?, front, covered, splitAt?_append, Option.bind_eq_bind, Option.bind_some,
    if_pos ordered]

/-- In a source that is short enough for its offsets, a span covers the text that it is made for. -/
theorem text?_ofRange {source : String} (small : source.utf8ByteSize < UInt32.size)
    {before taken rest : List Char} (whole : source.toList = before ++ taken ++ rest) :
    (ofRange (byteSize before) (byteSize before + byteSize taken)).text? source =
      some (String.ofList taken) := by
  have size : source.utf8ByteSize = byteSize before + byteSize taken + byteSize rest := by
    rw [← byteSize_toList, whole, byteSize_append, byteSize_append]
  apply text?_of_parts whole
  · exact toNat_start_ofRange (by omega)
  · rw [byteSize_append]
    exact toNat_stop_ofRange (by omega) (by omega)

/-- The text at the place of the whole source. -/
theorem text?_whole {source : String} (small : source.utf8ByteSize < UInt32.size) :
    (ofRange 0 source.utf8ByteSize).text? source = some source := by
  have parts : source.toList = [] ++ source.toList ++ [] := by rw [List.nil_append, List.append_nil]
  have covered := text?_ofRange small parts
  rwa [byteSize_nil, Nat.zero_add, byteSize_toList, String.ofList_toList] at covered

end Span

/-- A cause of trouble, with the place in the source that it is laid to. -/
structure Located (ε : Type) where
  cause : ε
  span : Span

end ExprLang
