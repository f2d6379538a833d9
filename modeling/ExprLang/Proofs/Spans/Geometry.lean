import ExprLang.Proofs.Scanning

set_option autoImplicit false

/-!
Where the parts of a tree stand in the source. A node fits if its span covers some of the source,
from one character boundary to another, and encloses the spans of its parts, which stand side by
side in the order of the source. The items of a scan fit in the same way.
-/

namespace ExprLang

open Text

/-- The offset falls between two characters of the source, or on one of its ends. -/
def Text.Boundary (source : String) (offset : Nat) : Prop :=
  ∃ before after, source.toList = before ++ after ∧ byteSize before = offset

namespace Span

/-- The span runs from one boundary of the source to another, and may be empty. -/
structure Inside (source : String) (s : Span) : Prop where
  start : Boundary source s.start.toNat
  stop : Boundary source s.stop.toNat
  ordered : s.start.toNat ≤ s.stop.toNat

/-- There is a text between two boundaries. -/
theorem Inside.exists_text {source : String} {s : Span} (h : s.Inside source) :
    ∃ text, s.text? source = some text := by
  obtain ⟨before, rest, whole, start⟩ := h.start
  obtain ⟨front, after, whole', stop⟩ := h.stop
  have ordered := h.ordered
  rw [← start, ← stop] at ordered
  rcases List.append_eq_append_iff.1 (whole.symm.trans whole') with
    ⟨taken, rfl, -⟩ | ⟨excess, rfl, -⟩
  · exact ⟨_, text?_of_parts whole' start.symm stop.symm⟩
  · have none : byteSize excess = 0 := by
      rw [byteSize_append] at ordered
      omega
    have parts : source.toList = (front ++ excess) ++ [] ++ rest := by
      rw [List.append_nil]
      exact whole
    refine ⟨_, text?_of_parts parts start.symm ?_⟩
    rw [List.append_nil, byteSize_append, none, ← stop, Nat.add_zero]

/-- The span covers some of the source. -/
structure Solid (source : String) (s : Span) : Prop where
  inside : s.Inside source
  nonempty : s.start.toNat < s.stop.toNat

def Encloses (s t : Span) : Prop :=
  s.start.toNat ≤ t.start.toNat ∧ t.stop.toNat ≤ s.stop.toNat

/-- The first span ends where the second one starts, or earlier. -/
def Precedes (s t : Span) : Prop :=
  s.stop.toNat ≤ t.start.toNat

theorem Encloses.refl (s : Span) : s.Encloses s :=
  ⟨Nat.le_refl _, Nat.le_refl _⟩

theorem Encloses.trans {s t u : Span} (first : s.Encloses t) (second : t.Encloses u) :
    s.Encloses u :=
  ⟨Nat.le_trans first.1 second.1, Nat.le_trans second.2 first.2⟩

theorem toNat_min (a b : UInt32) : (min a b).toNat = min a.toNat b.toNat := by
  show (if a ≤ b then a else b).toNat = _
  simp only [UInt32.le_iff_toNat_le]
  split <;> omega

theorem toNat_max (a b : UInt32) : (max a b).toNat = max a.toNat b.toNat := by
  show (if a ≤ b then b else a).toNat = _
  simp only [UInt32.le_iff_toNat_le]
  split <;> omega

theorem start_merge (a b : Span) : (a.merge b).start.toNat = min a.start.toNat b.start.toNat := by
  rw [merge, toNat_start_ofRange (UInt32.toNat_lt_size _), toNat_min]

theorem stop_merge {a b : Span} (ordered : a.start.toNat ≤ a.stop.toNat) :
    (a.merge b).stop.toNat = max a.stop.toNat b.stop.toNat := by
  have le : (min a.start b.start).toNat ≤ (max a.stop b.stop).toNat := by
    rw [toNat_min, toNat_max]
    omega
  rw [merge, toNat_stop_ofRange le (UInt32.toNat_lt_size _), toNat_max]

theorem Inside.merge {source : String} {a b : Span} (first : a.Inside source)
    (second : b.Inside source) : (a.merge b).Inside source := by
  have start := start_merge a b
  have stop : (a.merge b).stop.toNat = _ := stop_merge first.ordered
  have := first.ordered
  have := second.ordered
  constructor
  · rw [start]
    rcases Nat.le_total a.start.toNat b.start.toNat with le | le
    · rw [Nat.min_eq_left le]
      exact first.start
    · rw [Nat.min_eq_right le]
      exact second.start
  · rw [stop]
    rcases Nat.le_total a.stop.toNat b.stop.toNat with le | le
    · rw [Nat.max_eq_right le]
      exact second.stop
    · rw [Nat.max_eq_left le]
      exact first.stop
  · rw [start, stop]
    omega

/-- Merged with a span further on, a span reaches from its own start to the other one's end. -/
theorem merge_of_precedes {source : String} {a b : Span} (first : a.Solid source)
    (second : b.Solid source) (h : a.Precedes b) :
    (a.merge b).start.toNat = a.start.toNat ∧ (a.merge b).stop.toNat = b.stop.toNat := by
  have start := start_merge a b
  have stop : (a.merge b).stop.toNat = _ := stop_merge first.inside.ordered
  have := first.nonempty
  have := second.nonempty
  unfold Precedes at h
  omega

end Span

/-! ### Items of a scan -/

namespace Cursor

variable {source : String} {c c' : Cursor}

/-- One item covers some of the source, from the cursor on or later, and ends where the next one is
looked for. -/
theorem solid_of_next? (small : source.utf8ByteSize < UInt32.size) (stands : c.Stands source)
    {item : Item} (h : c.next? = some (item, c')) :
    item.span.Solid source ∧ c.offset ≤ item.span.start.toNat ∧ c'.Stands source ∧
      c'.offset = item.span.stop.toNat := by
  have given : c.next.1 = item := congrArg Prod.fst (next_of_some h)
  have left : c.next.2 = c' := congrArg Prod.snd (next_of_some h)
  obtain ⟨before, gap, taken, rest, within⟩ := exists_within small stands
  -- Only the end mark covers nothing, and it is no item.
  have nonempty : taken ≠ [] := by
    intro none
    have ended := within.nonempty.1 none
    rw [given, isEnd_of_next? h] at ended
    cases ended
  have covers : 0 < byteSize taken := by
    cases taken with
    | nil => exact absurd rfl nonempty
    | cons d ds =>
      have := d.utf8Size_pos
      rw [byteSize_cons]
      omega
  have offset : c.offset = byteSize before := by rw [within.starts]
  have next := within.stands
  have resumes := congrArg Cursor.offset within.resumes
  have start := within.start
  have stop := within.stop
  rw [given] at start stop resumes
  rw [left] at next resumes
  rw [byteSize_append] at stop
  have first : Boundary source item.span.start.toNat :=
    ⟨before ++ gap, taken ++ rest, by rw [within.whole, List.append_assoc], start.symm⟩
  have last : Boundary source item.span.stop.toNat := by
    refine ⟨before ++ gap ++ taken, rest, within.whole, ?_⟩
    rw [byteSize_append]
    exact stop.symm
  refine ⟨⟨⟨first, last, by omega⟩, by omega⟩, ?_, next, resumes⟩
  rw [offset, start, byteSize_append]
  omega

/-- The items of a scan stand one after the other. -/
theorem solid_items (small : source.utf8ByteSize < UInt32.size) (stands : c.Stands source) :
    (∀ item ∈ c.items, item.span.Solid source ∧ c.offset ≤ item.span.start.toNat) ∧
      c.items.Pairwise fun a b => a.span.Precedes b.span := by
  fun_induction items c with
  | case1 => exact ⟨fun item inside => absurd inside List.not_mem_nil, .nil⟩
  | case2 c item c' found ih =>
    obtain ⟨solid, start, next, resumes⟩ := solid_of_next? small stands found
    obtain ⟨others, ordered⟩ := ih next
    have nonempty := solid.nonempty
    refine ⟨?_, .cons ?_ ordered⟩
    · intro other inside
      rcases List.mem_cons.1 inside with rfl | later
      · exact ⟨solid, start⟩
      · have after := (others other later).2
        exact ⟨(others other later).1, by omega⟩
    · intro other later
      have after := (others other later).2
      rw [resumes] at after
      exact after

end Cursor

/-! ### Nodes -/

/-- What has a span of its own in a tree. A link is the conditional after an `else`. -/
inductive Node where
  | expr (e : Expr)
  | block (body : Block)
  | declaration (d : Declaration)
  | ident (name : Ident)
  | type (t : TypeExpr)
  | link (branches : Conditional) (span : Span)

namespace Node

def span : Node → Span
  | expr e => e.span
  | block body => body.span
  | declaration d => d.span
  | ident name => name.span
  | type t => t.span
  | link _ span => span

def ofConditional : Conditional → List Node
  | .only condition body => [expr condition, block body]
  | .withElse condition body otherwise => [expr condition, block body, block otherwise]
  | .withElseIf condition body next span => [expr condition, block body, link next span]

def ofExpr : Expr → List Node
  | .literal _ _ => []
  | .list items _ => items.map expr
  | .map entries _ => entries.flatMap fun entry => [expr entry.1, expr entry.2]
  | .name name _ => [ident name]
  | .unary _ operand _ => [expr operand]
  | .binary _ lhs rhs _ => [expr lhs, expr rhs]
  | .declare d _ => [declaration d]
  | .assign target value _ => [ident target, expr value]
  | .block body _ => [block body]
  | .cond branches _ => ofConditional branches
  | .loop vars body _ => vars.map declaration ++ [block body]
  | .exit _ value _ => value.toList.map expr
  | .call callee arguments _ => ident callee :: arguments.map expr

def ofType : TypeExpr → List Node
  | .list element _ => [type element]
  | .map key value _ => [type key, type value]
  | _ => []

/-- The nodes that stand directly in a node, in the order in which they are written. -/
def parts : Node → List Node
  | expr e => ofExpr e
  | block body => body.statements.map expr
  | declaration d => [ident d.name, type d.type, expr d.value]
  | ident _ => []
  | type t => ofType t
  | link branches _ => ofConditional branches

def isIdent : Node → Bool
  | ident _ => true
  | _ => false

/-- An assignment that does an operation first has its target in its value too. -/
def isAssignment : Node → Bool
  | expr (.assign ..) => true
  | _ => false

/-- The second node stands somewhere in the first one. -/
inductive Has : Node → Node → Prop where
  | part {n m : Node} (direct : m ∈ n.parts) : Has n m
  | deeper {n m d : Node} (direct : m ∈ n.parts) (more : Has m d) : Has n d

/-- A node and its parts, seen from the source. -/
structure Fits (source : String) (n : Node) : Prop where
  solid : n.span.Solid source
  encloses : ∀ m ∈ n.parts, n.span.Encloses m.span
  ordered : n.isAssignment = false → n.parts.Pairwise fun a b => a.span.Precedes b.span
  named : ∀ name, n = ident name → name.span.text? source = some name.name

/-- A node fits, and so does everything in it. -/
inductive Sound (source : String) : Node → Prop where
  | intro {n : Node} (here : n.Fits source) (rest : ∀ m ∈ n.parts, Sound source m) : Sound source n

variable {source : String} {n : Node}

theorem Sound.fits (h : n.Sound source) : n.Fits source := by
  cases h
  assumption

theorem Sound.part (h : n.Sound source) {m : Node} (direct : m ∈ n.parts) : m.Sound source := by
  cases h with
  | intro _ rest => exact rest m direct

theorem Sound.has (h : n.Sound source) {d : Node} (inside : n.Has d) :
    d.Sound source ∧ n.span.Encloses d.span := by
  induction inside with
  | part direct => exact ⟨h.part direct, h.fits.encloses _ direct⟩
  | deeper direct _ ih =>
    obtain ⟨sound, encloses⟩ := ih (h.part direct)
    exact ⟨sound, (h.fits.encloses _ direct).trans encloses⟩

/-- The same parts in a span that encloses them. -/
theorem Sound.widen (h : n.Sound source) {n' : Node} (parts : n'.parts = n.parts)
    (assignment : n'.isAssignment = n.isAssignment) (unnamed : n'.isIdent = false)
    (solid : n'.span.Solid source) (encloses : n'.span.Encloses n.span) : n'.Sound source := by
  refine .intro ⟨solid, ?_, ?_, ?_⟩ ?_
  · intro m direct
    rw [parts] at direct
    exact encloses.trans (h.fits.encloses m direct)
  · rw [assignment, parts]
    exact h.fits.ordered
  · rintro name rfl
    cases unnamed
  · intro m direct
    rw [parts] at direct
    exact h.part direct

theorem parts_withSpan (e : Expr) (s : Span) : (expr (e.withSpan s)).parts = (expr e).parts := by
  cases e <;> rfl

theorem isAssignment_withSpan (e : Expr) (s : Span) :
    (expr (e.withSpan s)).isAssignment = (expr e).isAssignment := by
  cases e <;> rfl

/-- Nodes between two offsets, one after the other. -/
inductive Row (source : String) : Nat → List Node → Nat → Prop where
  | nil {lo hi : Nat} (le : lo ≤ hi) : Row source lo [] hi
  | cons {lo hi : Nat} {n : Node} {rest : List Node} (sound : n.Sound source)
      (after : lo ≤ n.span.start.toNat) (more : Row source n.span.stop.toNat rest hi) :
      Row source lo (n :: rest) hi

namespace Row

variable {lo hi mid : Nat} {nodes more : List Node}

theorem le (h : Row source lo nodes hi) : lo ≤ hi := by
  induction h with
  | nil le => exact le
  | cons sound after _ ih =>
    have := sound.fits.solid.nonempty
    omega

theorem single (sound : n.Sound source) (after : lo ≤ n.span.start.toNat)
    (before : n.span.stop.toNat ≤ hi) : Row source lo [n] hi :=
  .cons sound after (.nil before)

theorem append (first : Row source lo nodes mid) (second : Row source mid more hi) :
    Row source lo (nodes ++ more) hi := by
  induction first with
  | @nil lo mid le =>
    cases second with
    | nil le' => exact .nil (by omega)
    | cons sound after rest => exact .cons sound (by omega) rest
  | cons sound after _ ih => exact .cons sound after (ih second)

theorem mono {lo' hi' : Nat} (h : Row source lo nodes hi) (start : lo' ≤ lo) (stop : hi ≤ hi') :
    Row source lo' nodes hi' := by
  induction h generalizing lo' with
  | nil le => exact .nil (by omega)
  | cons sound after _ ih => exact .cons sound (by omega) (ih (Nat.le_refl _) stop)

theorem of_mem (h : Row source lo nodes hi) (inside : n ∈ nodes) :
    n.Sound source ∧ lo ≤ n.span.start.toNat ∧ n.span.stop.toNat ≤ hi := by
  induction h with
  | nil => cases inside
  | cons sound after rest ih =>
    rcases List.mem_cons.1 inside with rfl | later
    · exact ⟨sound, after, rest.le⟩
    · obtain ⟨other, start, stop⟩ := ih later
      have := sound.fits.solid.nonempty
      exact ⟨other, by omega, stop⟩

theorem pairwise (h : Row source lo nodes hi) :
    nodes.Pairwise fun a b => a.span.Precedes b.span := by
  induction h with
  | nil => exact .nil
  | cons _ _ rest ih => exact .cons (fun m inside => (rest.of_mem inside).2.1) ih

/-- A node is sound whose parts stand in a row inside its span. -/
theorem sound (row : Row source lo n.parts hi) (solid : n.span.Solid source)
    (start : n.span.start.toNat ≤ lo) (stop : hi ≤ n.span.stop.toNat)
    (unnamed : n.isIdent = false) : n.Sound source := by
  refine .intro ⟨solid, ?_, fun _ => row.pairwise, ?_⟩ fun m direct => (row.of_mem direct).1
  · intro m direct
    obtain ⟨-, after, before⟩ := row.of_mem direct
    exact ⟨by omega, by omega⟩
  · rintro name rfl
    cases unnamed

end Row

end Node

end ExprLang
