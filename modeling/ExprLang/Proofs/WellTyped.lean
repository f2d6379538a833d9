import ExprLang.Eval.Error
import ExprLang.Expr.Basic
import ExprLang.Typing.Rules

set_option autoImplicit false

/-!
Values that keep what their types promise, and the operations on them. What the rule of an operator
accepts, the operation delivers: a value of the type that the rule gives, or one of three failures
that no rule can exclude, with that type to fall back on.
-/

namespace ExprLang

/-- Every name in the type has as many arguments as it takes. -/
inductive Ty.WellFormed : Ty → Prop where
  | none : WellFormed .none
  | int : WellFormed .int
  | dec : WellFormed .dec
  | str : WellFormed .str
  | bool : WellFormed .bool
  | list {element : Ty} (h : element.WellFormed) : WellFormed (.list element)
  | map {key value : Ty} (first : key.WellFormed) (second : value.WellFormed) :
      WellFormed (.map key value)

theorem TypeExpr.type_wellFormed (t : TypeExpr) : t.type.WellFormed := by
  induction t with
  | none => exact .none
  | int => exact .int
  | dec => exact .dec
  | str => exact .str
  | bool => exact .bool
  | list _ _ ih => exact .list ih
  | map _ _ _ first second => exact .map first second

namespace Value

mutual

/-- Every item of a list has the element type of the list, and every entry of a map its key and
value types, all the way down. -/
def Deep : Value → Prop
  | none | int _ | dec _ | str _ | bool _ => True
  | list element items => DeepItems element items
  | map key value entries => DeepEntries key value entries

def DeepItems (element : Ty) : List Value → Prop
  | [] => True
  | item :: rest => (item.type = element ∧ item.Deep) ∧ DeepItems element rest

def DeepEntries (key value : Ty) : List (Value × Value) → Prop
  | [] => True
  | (k, v) :: rest =>
    ((k.type = key ∧ k.Deep) ∧ v.type = value ∧ v.Deep) ∧ DeepEntries key value rest

end

theorem deepItems_iff {element : Ty} {items : List Value} :
    DeepItems element items ↔ ∀ item ∈ items, item.type = element ∧ item.Deep := by
  induction items with
  | nil => simp [DeepItems]
  | cons item rest ih => rw [DeepItems, ih, List.forall_mem_cons]

theorem deepEntries_iff {key value : Ty} {entries : List (Value × Value)} :
    DeepEntries key value entries ↔
      ∀ e ∈ entries, (e.1.type = key ∧ e.1.Deep) ∧ e.2.type = value ∧ e.2.Deep := by
  induction entries with
  | nil => simp [DeepEntries]
  | cons entry rest ih => rw [DeepEntries, ih, List.forall_mem_cons]

/-- The value is of the type, all the way down. -/
structure HasType (v : Value) (t : Ty) : Prop where
  type : v.type = t
  wellFormed : t.WellFormed
  deep : v.Deep

end Value

theorem Ty.zero_hasType {t : Ty} (h : t.WellFormed) : t.zero.HasType t := by
  cases h with
  | none => exact ⟨rfl, .none, trivial⟩
  | int => exact ⟨rfl, .int, trivial⟩
  | dec => exact ⟨rfl, .dec, trivial⟩
  | str => exact ⟨rfl, .str, trivial⟩
  | bool => exact ⟨rfl, .bool, trivial⟩
  | list h => exact ⟨rfl, .list h, trivial⟩
  | map first second => exact ⟨rfl, .map first second, trivial⟩

namespace Value

variable {l r v : Value} {t : Ty}

theorem hasType_none : HasType none .none := ⟨rfl, .none, trivial⟩

theorem hasType_int (n : Int) : HasType (int n) .int := ⟨rfl, .int, trivial⟩

theorem hasType_dec (d : Decimal) : HasType (dec d) .dec := ⟨rfl, .dec, trivial⟩

theorem hasType_str (s : String) : HasType (str s) .str := ⟨rfl, .str, trivial⟩

theorem hasType_bool (b : Bool) : HasType (bool b) .bool := ⟨rfl, .bool, trivial⟩

theorem hasType_list {element : Ty} (h : element.WellFormed) {items : List Value}
    (each : ∀ item ∈ items, item.HasType element) : HasType (list element items) (.list element) :=
  ⟨rfl, .list h,
    deepItems_iff.2 fun item inside => ⟨(each item inside).type, (each item inside).deep⟩⟩

theorem HasType.item {element : Ty} {items : List Value}
    (h : HasType (list element items) (.list element)) {item : Value} (inside : item ∈ items) :
    item.HasType element := by
  obtain ⟨type, deep⟩ := deepItems_iff.1 h.deep item inside
  cases h.wellFormed with
  | list wellFormed => exact ⟨type, wellFormed, deep⟩

/-- A number is an integer or a decimal. -/
theorem HasType.numeric (h : v.HasType t) (numeric : t.isNumeric = true) :
    (∃ n, v = int n ∧ t = .int) ∨ ∃ d, v = dec d ∧ t = .dec := by
  obtain rfl := h.type
  cases v with
  | int n => exact .inl ⟨n, rfl, rfl⟩
  | dec d => exact .inr ⟨d, rfl, rfl⟩
  | _ => cases numeric

theorem HasType.truth (h : v.HasType t) (name : t.name = .bool) : ∃ b, v = bool b ∧ t = .bool := by
  obtain rfl := h.type
  cases v with
  | bool b => exact ⟨b, rfl, rfl⟩
  | _ => cases name

theorem HasType.text (h : v.HasType t) (name : t.name = .str) : ∃ s, v = str s ∧ t = .str := by
  obtain rfl := h.type
  cases v with
  | str s => exact ⟨s, rfl, rfl⟩
  | _ => cases name

theorem HasType.integer (h : v.HasType t) (name : t.name = .int) : ∃ n, v = int n ∧ t = .int := by
  obtain rfl := h.type
  cases v with
  | int n => exact ⟨n, rfl, rfl⟩
  | _ => cases name

theorem HasType.items (h : v.HasType t) (name : t.name = .list) :
    ∃ element items, v = list element items ∧ t = .list element := by
  obtain rfl := h.type
  cases v with
  | list element items => exact ⟨element, items, rfl, rfl⟩
  | _ => cases name

theorem HasType.entries (h : v.HasType t) (name : t.name = .map) :
    ∃ key value entries, v = map key value entries ∧ t = .map key value := by
  obtain rfl := h.type
  cases v with
  | map key value entries => exact ⟨key, value, entries, rfl, rfl⟩
  | _ => cases name

end Value

/-- The failures that typing does not exclude. -/
def OperationError.isExpected : OperationError → Bool
  | divisionByZero _ | moduloByZero | indexOutOfRange .. => true
  | mismatchedTypes .. | invalidOperand .. | notIndexable _ => false

/-- An operation gives a value of the type, or fails in an expected way and falls back on one. -/
def Delivers (t : Ty) : Except OperationError Value → Prop
  | .ok v => v.HasType t
  | .error error => error.isExpected = true ∧ error.fallback.zero.HasType t

namespace Value

variable {l r : Value} {s t : Ty}

/-- Numbers meet on the ground of their promoted type. -/
theorem numbers?_of_numeric (hl : l.HasType s) (hr : r.HasType t)
    (numeric : (s.isNumeric && t.isNumeric) = true) :
    (∃ m n, numbers? l r = some (.ints m n) ∧ s.promote t = .int) ∨
      ∃ a b, numbers? l r = some (.decs a b) ∧ s.promote t = .dec := by
  obtain ⟨left, right⟩ := Bool.and_eq_true_iff.1 numeric
  obtain ⟨m, rfl, rfl⟩ | ⟨a, rfl, rfl⟩ := hl.numeric left <;>
    obtain ⟨n, rfl, rfl⟩ | ⟨b, rfl, rfl⟩ := hr.numeric right
  · exact .inl ⟨m, n, rfl, rfl⟩
  · exact .inr ⟨_, b, rfl, rfl⟩
  · exact .inr ⟨a, _, rfl, rfl⟩
  · exact .inr ⟨a, b, rfl, rfl⟩

/-- Sums and differences are of two numbers, two texts, or two lists of one type. -/
theorem sum_accepted {op : BinaryOp} (sum : op = .add ∨ op = .subtract) {site : Unit → String}
    (accepted : (op.verdict s t site).complaint = Option.none) :
    ((s.isNumeric && t.isNumeric) = true ∧ (op.verdict s t site).type = s.promote t) ∨
      (s.name = .str ∧ t.name = .str ∧ (op.verdict s t site).type = s) ∨
      s.name = .list ∧ s = t ∧ (op.verdict s t site).type = s := by
  have eq : op.verdict s t site = if s.isNumeric && t.isNumeric then .accept (s.promote t)
      else if s.name = .str ∧ t.name = .str then .accept s
      else if s.name = .list ∧ s = t then .accept s
      else .reject .none (.invalidOperands op.name s t) := by
    rcases sum with rfl | rfl <;> rfl
  rw [eq] at accepted ⊢
  split
  next numeric => exact .inl ⟨numeric, rfl⟩
  next other =>
    rw [if_neg other] at accepted
    split
    next texts => exact .inr (.inl ⟨texts.1, texts.2, rfl⟩)
    next other' =>
      rw [if_neg other'] at accepted
      split
      next lists => exact .inr (.inr ⟨lists.1, lists.2, rfl⟩)
      next other'' =>
        rw [if_neg other''] at accepted
        cases accepted

/-- Two lists of one type have their items in common form. -/
theorem lists_of_type (hl : l.HasType t) (hr : r.HasType t) (name : t.name = .list) :
    ∃ element xs ys, l = list element xs ∧ r = list element ys ∧ t = .list element := by
  obtain ⟨element, xs, rfl, rfl⟩ := hl.items name
  obtain ⟨element', ys, rfl, same⟩ := hr.items name
  obtain rfl : element = element' := by injections
  exact ⟨element, xs, ys, rfl, rfl, rfl⟩

theorem add_delivers (hl : l.HasType s) (hr : r.HasType t) {site : Unit → String}
    (accepted : (BinaryOp.add.verdict s t site).complaint = Option.none) :
    Delivers (BinaryOp.add.verdict s t site).type (l.add r) := by
  rcases sum_accepted (.inl rfl) accepted with ⟨numeric, type⟩ | ⟨left, right, type⟩ |
    ⟨name, rfl, type⟩
  · obtain ⟨m, n, eq, promoted⟩ | ⟨a, b, eq, promoted⟩ := numbers?_of_numeric hl hr numeric
    · rw [type, promoted]
      simp only [add, eq]
      exact hasType_int _
    · rw [type, promoted]
      simp only [add, eq]
      exact hasType_dec _
  · obtain ⟨a, rfl, rfl⟩ := hl.text left
    obtain ⟨b, rfl, rfl⟩ := hr.text right
    rw [type]
    exact hasType_str _
  · obtain ⟨element, xs, ys, rfl, rfl, rfl⟩ := lists_of_type hl hr name
    rw [type]
    cases hl.wellFormed with
    | list wellFormed =>
      simp only [add, numbers?, ↓reduceIte]
      refine hasType_list wellFormed fun item inside => ?_
      rcases List.mem_append.1 inside with inside | inside
      · exact hl.item inside
      · exact hr.item inside

theorem subtract_delivers (hl : l.HasType s) (hr : r.HasType t) {site : Unit → String}
    (accepted : (BinaryOp.subtract.verdict s t site).complaint = Option.none) :
    Delivers (BinaryOp.subtract.verdict s t site).type (l.subtract r) := by
  rcases sum_accepted (.inr rfl) accepted with ⟨numeric, type⟩ | ⟨left, right, type⟩ |
    ⟨name, rfl, type⟩
  · obtain ⟨m, n, eq, promoted⟩ | ⟨a, b, eq, promoted⟩ := numbers?_of_numeric hl hr numeric
    · rw [type, promoted]
      simp only [subtract, eq]
      exact hasType_int _
    · rw [type, promoted]
      simp only [subtract, eq]
      exact hasType_dec _
  · obtain ⟨a, rfl, rfl⟩ := hl.text left
    obtain ⟨b, rfl, rfl⟩ := hr.text right
    rw [type]
    exact hasType_str _
  · obtain ⟨element, xs, ys, rfl, rfl, rfl⟩ := lists_of_type hl hr name
    rw [type]
    cases hl.wellFormed with
    | list wellFormed =>
      simp only [subtract, numbers?, ↓reduceIte]
      exact hasType_list wellFormed fun item inside => hl.item (List.mem_filter.1 inside).1

/-- Products and quotients are of two numbers. -/
theorem product_accepted {op : BinaryOp} (product : op = .multiply ∨ op = .divide)
    {site : Unit → String} (accepted : (op.verdict s t site).complaint = Option.none) :
    (s.isNumeric && t.isNumeric) = true ∧ (op.verdict s t site).type = s.promote t := by
  have eq : op.verdict s t site = if s.isNumeric && t.isNumeric then .accept (s.promote t)
      else .reject .none (.invalidOperands op.name s t) := by
    rcases product with rfl | rfl <;> rfl
  rw [eq] at accepted ⊢
  split
  next numeric => exact ⟨numeric, rfl⟩
  next other =>
    rw [if_neg other] at accepted
    cases accepted

theorem multiply_delivers (hl : l.HasType s) (hr : r.HasType t) {site : Unit → String}
    (accepted : (BinaryOp.multiply.verdict s t site).complaint = Option.none) :
    Delivers (BinaryOp.multiply.verdict s t site).type (l.multiply r) := by
  obtain ⟨numeric, type⟩ := product_accepted (.inl rfl) accepted
  obtain ⟨m, n, eq, promoted⟩ | ⟨a, b, eq, promoted⟩ := numbers?_of_numeric hl hr numeric
  · rw [type, promoted]
    simp only [multiply, eq]
    exact hasType_int _
  · rw [type, promoted]
    simp only [multiply, eq]
    exact hasType_dec _

theorem divide_delivers (hl : l.HasType s) (hr : r.HasType t) {site : Unit → String}
    (accepted : (BinaryOp.divide.verdict s t site).complaint = Option.none) :
    Delivers (BinaryOp.divide.verdict s t site).type (l.divide r) := by
  obtain ⟨numeric, type⟩ := product_accepted (.inr rfl) accepted
  obtain ⟨m, n, eq, promoted⟩ | ⟨a, b, eq, promoted⟩ := numbers?_of_numeric hl hr numeric
  · rw [type, promoted]
    simp only [divide, eq]
    split
    · exact ⟨rfl, hasType_int _⟩
    · exact hasType_int _
  · rw [type, promoted]
    simp only [divide, eq]
    split
    · exact ⟨rfl, hasType_dec _⟩
    · exact hasType_dec _

theorem modulo_delivers (hl : l.HasType s) (hr : r.HasType t) {site : Unit → String}
    (accepted : (BinaryOp.modulo.verdict s t site).complaint = Option.none) :
    Delivers (BinaryOp.modulo.verdict s t site).type (l.modulo r) := by
  simp only [BinaryOp.verdict] at *
  split at accepted
  next ints =>
    obtain ⟨m, rfl, rfl⟩ := hl.integer ints.1
    obtain ⟨n, rfl, rfl⟩ := hr.integer ints.2
    rw [if_pos ints]
    simp only [modulo]
    split
    · exact ⟨rfl, hasType_int _⟩
    · exact hasType_int _
  next => cases accepted

theorem mem_of_at? {α : Type} {items : List α} {position : Int} {item : α}
    (h : at? items position = some item) : item ∈ items := by
  cases position with
  | ofNat n => exact List.mem_of_getElem? h
  | negSucc n => cases h

theorem mem_of_lookup {entries : List (Value × Value)} {key v : Value}
    (h : lookup entries key = some v) : ∃ k, (k, v) ∈ entries := by
  obtain ⟨⟨k, v'⟩, found, rfl⟩ := Option.map_eq_some_iff.1 h
  exact ⟨k, List.mem_of_find?_eq_some found⟩

/-- Indexing is into a text or a list by an integer, or into a map by one of its keys. -/
theorem index_accepted {site : Unit → String}
    (accepted : (BinaryOp.index.verdict s t site).complaint = Option.none) :
    (s.name = .str ∧ t = .int ∧ (BinaryOp.index.verdict s t site).type = .str) ∨
      (s.name = .list ∧ t = .int ∧ (BinaryOp.index.verdict s t site).type = s.elementType) ∨
      s.name = .map ∧ t = s.keyType ∧ (BinaryOp.index.verdict s t site).type = s.valueType := by
  have eq : BinaryOp.index.verdict s t site = s.indexVerdict t := rfl
  rw [eq] at accepted ⊢
  unfold Ty.indexVerdict at *
  cases name : s.name <;> simp only [name] at accepted ⊢ <;>
    first
    | cases accepted
    | (split at accepted
       · next same => simp [same, Verdict.accept]
       · cases accepted)

theorem index_delivers (hl : l.HasType s) (hr : r.HasType t) {site : Unit → String}
    (accepted : (BinaryOp.index.verdict s t site).complaint = Option.none) :
    Delivers (BinaryOp.index.verdict s t site).type (l.index r) := by
  rcases index_accepted accepted with ⟨name, rfl, type⟩ | ⟨name, rfl, type⟩ | ⟨name, rfl, type⟩
  · obtain ⟨text, rfl, rfl⟩ := hl.text name
    obtain ⟨position, rfl, -⟩ := hr.integer rfl
    rw [type]
    simp only [index]
    split
    · exact hasType_str _
    · exact ⟨rfl, hasType_str _⟩
  · obtain ⟨element, items, rfl, rfl⟩ := hl.items name
    obtain ⟨position, rfl, -⟩ := hr.integer rfl
    rw [type]
    simp only [index]
    split
    next found => exact hl.item (mem_of_at? found)
    next =>
      cases hl.wellFormed with
      | list wellFormed => exact ⟨rfl, Ty.zero_hasType wellFormed⟩
  · obtain ⟨key, value, entries, rfl, rfl⟩ := hl.entries name
    rw [type]
    simp only [index]
    cases hl.wellFormed with
    | map _ wellFormed =>
      cases found : lookup entries r with
      | none => exact Ty.zero_hasType wellFormed
      | some v =>
        obtain ⟨k, inside⟩ := mem_of_lookup found
        obtain ⟨-, type, deep⟩ := deepEntries_iff.1 hl.deep _ inside
        exact ⟨type, wellFormed, deep⟩

theorem negate_delivers {v : Value} (h : v.HasType t)
    (accepted : (UnaryOp.minus.verdict t).complaint = Option.none) :
    Delivers (UnaryOp.minus.verdict t).type v.negate := by
  simp only [UnaryOp.verdict] at *
  split at accepted
  next numeric =>
    rw [if_pos numeric]
    obtain ⟨n, rfl, rfl⟩ | ⟨d, rfl, rfl⟩ := h.numeric numeric
    · exact hasType_int _
    · exact hasType_dec _
  next => cases accepted

theorem not_delivers {v : Value} (h : v.HasType t)
    (accepted : (UnaryOp.not.verdict t).complaint = Option.none) :
    Delivers (UnaryOp.not.verdict t).type v.not := by
  simp only [UnaryOp.verdict] at *
  split at accepted
  next name =>
    rw [if_pos name]
    obtain ⟨b, rfl, rfl⟩ := h.truth name
    exact hasType_bool _
  next => cases accepted

/-- Values of one type that has an order can be compared. -/
theorem compare_succeeds (op : BinaryOp) (hl : l.HasType t) (hr : r.HasType t)
    (comparable : t.isComparable = true) : ∃ order, l.compare op r = .ok order := by
  obtain rfl := hl.type
  cases l with
  | int m => obtain ⟨n, rfl, -⟩ := hr.integer rfl; exact ⟨_, rfl⟩
  | dec a =>
    obtain ⟨n, -, absurd⟩ | ⟨b, rfl, -⟩ := hr.numeric rfl
    · cases absurd
    · exact ⟨_, rfl⟩
  | str a => obtain ⟨b, rfl, -⟩ := hr.text rfl; exact ⟨_, rfl⟩
  | _ => cases comparable

theorem len_succeeds {v : Value} (h : v.HasType t) (indexable : t.isIndexable = true) :
    ∃ n, v.len = .ok n := by
  obtain rfl := h.type
  cases v with
  | str s => exact ⟨_, rfl⟩
  | list element items => exact ⟨_, rfl⟩
  | map key value entries => exact ⟨_, rfl⟩
  | _ => cases indexable

theorem mem_insert {key value : Value} {entries : List (Value × Value)} {e : Value × Value}
    (h : e ∈ insert key value entries) :
    e.2 = value ∧ (e.1 = key ∨ ∃ v, (e.1, v) ∈ entries) ∨ e ∈ entries := by
  induction entries with
  | nil =>
    obtain rfl := List.mem_singleton.1 h
    exact .inl ⟨rfl, .inl rfl⟩
  | cons first rest ih =>
    obtain ⟨k, v⟩ := first
    simp only [insert] at h
    split at h
    · rcases List.mem_cons.1 h with rfl | inside
      · exact .inl ⟨rfl, .inr ⟨v, List.mem_cons_self ..⟩⟩
      · exact .inr (List.mem_cons_of_mem _ inside)
    · rcases List.mem_cons.1 h with rfl | inside
      · exact .inr (List.mem_cons_self ..)
      · rcases ih inside with ⟨same, at_key | ⟨v', before⟩⟩ | before
        · exact .inl ⟨same, .inl at_key⟩
        · exact .inl ⟨same, .inr ⟨v', List.mem_cons_of_mem _ before⟩⟩
        · exact .inr (List.mem_cons_of_mem _ before)

theorem deepEntries_insert {keyType valueType : Ty} {key value : Value}
    {entries : List (Value × Value)} (hk : key.HasType keyType) (hv : value.HasType valueType)
    (h : DeepEntries keyType valueType entries) :
    DeepEntries keyType valueType (insert key value entries) := by
  rw [deepEntries_iff] at *
  rintro ⟨k, v⟩ inside
  rcases mem_insert inside with ⟨rfl, rfl | ⟨v', before⟩⟩ | before
  · exact ⟨⟨hk.type, hk.deep⟩, hv.type, hv.deep⟩
  · exact ⟨(h _ before).1, hv.type, hv.deep⟩
  · exact h _ before

theorem hasType_mapOfPairs {key value : Ty} {pairs : List (Value × Value)}
    (first : key.WellFormed) (second : value.WellFormed)
    (each : ∀ pair ∈ pairs, pair.1.HasType key ∧ pair.2.HasType value) :
    (mapOfPairs key value pairs).HasType (.map key value) := by
  refine ⟨rfl, .map first second, ?_⟩
  have step : ∀ entries, DeepEntries key value entries →
      DeepEntries key value (pairs.foldl (fun es pair => insert pair.1 pair.2 es) entries) := by
    induction pairs with
    | nil => exact fun _ h => h
    | cons pair rest ih =>
      intro entries h
      obtain ⟨hk, hv⟩ := each pair (List.mem_cons_self ..)
      exact ih (fun p inside => each p (List.mem_cons_of_mem _ inside)) _
        (deepEntries_insert hk hv h)
  exact step [] trivial

end Value

end ExprLang
