import ExprLang.Expr.Literal
import ExprLang.Expr.Source
import ExprLang.Proofs.RoundTrip.Lexes
import ExprLang.Proofs.Scanning.Cuts

set_option autoImplicit false

/-!
Literals in source text: each is one token, and the value of the token is the literal. Quoting
writes some characters in a way that string literals do not know, and scientific notation is not
read at all, so this holds of the literals that avoid both.
-/

namespace ExprLang

/-- Characters that string literals can hold in the form that quoting gives them. -/
def Text.Quotable (c : Char) : Prop :=
  escape '"' c = [c] ∨ c ∈ ['\n', '\r', '\t', '\x00', '"', '\\']

instance : DecidablePred Text.Quotable :=
  fun _ => inferInstanceAs (Decidable (_ ∨ _))

/-- A decimal that is written with a point: it is not zero, and at most five zeros follow the
point before its first digit. -/
def Decimal.Pointed (d : Decimal) : Prop :=
  d.digits ≠ 0 ∧ d.scale - digitCount d.digits.natAbs ≤ 5

instance : DecidablePred Decimal.Pointed :=
  fun _ => inferInstanceAs (Decidable (_ ∧ _))

/-- Literals whose written form can be read. -/
def Literal.Plain : Literal → Prop
  | .dec d => d.Pointed
  | .str s => ∀ c ∈ s.toList, Text.Quotable c
  | _ => True

instance : DecidablePred Literal.Plain
  | .dec d => inferInstanceAs (Decidable d.Pointed)
  | .str s => List.decidableBAll Text.Quotable s.toList
  | .int _ | .bool _ => .isTrue trivial

/-- Literals as they are read: numbers carry no sign, and decimals have a digit after the point. -/
def Literal.Unsigned : Literal → Prop
  | .int n => 0 ≤ n
  | .dec d => 0 ≤ d.digits ∧ 0 < d.scale
  | _ => True

/-- The token that a literal is written as. -/
def Literal.word : Literal → Word
  | .int n => (.int, toString n)
  | .dec d => (.dec, d.literal)
  | .str s => (.string, Text.quote s)
  | .bool b => if b then Keyword.true.word else Keyword.false.word

/-! ### Numbers -/

theorem Literal.digitsValue_eq (digits : List Char) :
    digitsValue digits = Nat.ofDigitChars 10 digits 0 :=
  rfl

theorem Literal.isNumeral_iff {cs : List Char} :
    isNumeral cs = true ↔ cs ≠ [] ∧ ∀ c ∈ cs, c.isDigit = true := by
  simp [isNumeral]

theorem Literal.int?_of_digits {digits : List Char} (nonempty : digits ≠ [])
    (numeral : ∀ c ∈ digits, c.isDigit = true) :
    int? (String.ofList digits) = some (digitsValue digits : Int) := by
  simp only [int?, String.toList_ofList, isNumeral_iff.2 ⟨nonempty, numeral⟩, ↓reduceIte]

theorem Literal.dec?_of_digits {whole fraction : List Char} (nonempty : whole ≠ [])
    (nonempty' : fraction ≠ []) (numeral : ∀ c ∈ whole, c.isDigit = true)
    (numeral' : ∀ c ∈ fraction, c.isDigit = true) :
    dec? (String.ofList (whole ++ '.' :: fraction)) =
      some ⟨digitsValue (whole ++ fraction), fraction.length⟩ := by
  have before : ∀ c ∈ whole, decide (c ≠ '.') = true := by
    intro c inside
    rw [decide_eq_true_iff]
    rintro rfl
    exact absurd (numeral _ inside) (by decide)
  have point : ∀ c ∈ ('.' :: fraction).head?, decide (c ≠ '.') = false := by
    rintro c ⟨⟩
    decide
  obtain ⟨taken, left⟩ := Lexes.run_of_stop before point
  simp only [dec?, String.toList_ofList, taken, left, List.drop_succ_cons, List.drop_zero,
    isNumeral_iff.2 ⟨nonempty, numeral⟩, isNumeral_iff.2 ⟨nonempty', numeral'⟩, Bool.and_self,
    ↓reduceIte]

theorem isDigit_of_mem_toDigits {n : Nat} {c : Char} (h : c ∈ Nat.toDigits 10 n) :
    c.isDigit = true :=
  Nat.isDigit_of_mem_toDigits (by decide) (by decide) h

/-- The digits of a number that is not zero do not start with a zero. -/
theorem head?_toDigits_ne_zero {n : Nat} (pos : 0 < n) : (Nat.toDigits 10 n).head? ≠ some '0' := by
  induction n using Nat.strongRecOn with
  | ind n ih =>
    by_cases small : n < 10
    · rw [Nat.toDigits_of_lt_base small, List.head?_cons, ne_eq, Option.some.injEq]
      intro zero
      have value := congrArg Char.toNat zero
      rw [Nat.toNat_digitChar_of_lt_ten small] at value
      have : 48 + n = 48 := value
      omega
    · have further := ih (n / 10) (by omega) (by omega)
      obtain ⟨c, cs, digits⟩ := List.exists_cons_of_ne_nil (Nat.toDigits_ne_nil (n := n / 10))
      rw [Nat.toDigits_of_base_le (by decide) (Nat.le_of_not_lt small)]
      rw [digits] at further ⊢
      exact further

theorem toList_toString_natCast (n : Nat) : (toString (n : Int)).toList = Nat.toDigits 10 n := by
  rw [Int.toString_eq_repr]
  exact Nat.toList_repr

theorem Literal.int?_toString (n : Nat) : int? (toString (n : Int)) = some (n : Int) := by
  have read := int?_of_digits Nat.toDigits_ne_nil fun _ => isDigit_of_mem_toDigits (n := n)
  rwa [← toList_toString_natCast, String.ofList_toList, toList_toString_natCast, digitsValue_eq,
    Nat.ofDigitChars_ten_toDigits] at read

namespace Decimal

/-- What stands before the point of a decimal and what after it. -/
structure Split (digits places : Nat) (whole fraction : List Char) : Prop where
  text : pointed digits places = whole ++ '.' :: fraction
  nonempty : whole ≠ []
  length : fraction.length = places
  numeral : ∀ c ∈ whole ++ fraction, c.isDigit = true
  value : Literal.digitsValue (whole ++ fraction) = digits
  leading : whole = ['0'] ∨ whole.head? ≠ some '0'

theorem pointed_split (digits : Nat) {places : Nat} (pos : 0 < places) :
    ∃ whole fraction, Split digits places whole fraction := by
  have some : ¬ (places : Int) ≤ 0 := by omega
  let text := Nat.toDigits 10 digits
  by_cases room : places < text.length
  · refine ⟨text.take (text.length - places), text.drop (text.length - places), ?_, ?_, ?_, ?_, ?_,
      .inr ?_⟩
    · simp only [pointed, if_neg some, Int.toNat_natCast]
      exact if_pos room
    · have length : (text.take (text.length - places)).length = text.length - places := by
        rw [List.length_take]
        omega
      intro empty
      rw [empty, List.length_nil] at length
      omega
    · rw [List.length_drop]
      omega
    · rw [List.take_append_drop]
      exact fun _ => isDigit_of_mem_toDigits
    · rw [List.take_append_drop]
      exact Nat.ofDigitChars_ten_toDigits
    · have nonzero : digits ≠ 0 := by
        rintro rfl
        have single : text.length = 1 := congrArg List.length (Nat.toDigits_zero 10)
        omega
      have before : text.length - places ≠ 0 := by omega
      rw [List.head?_take, if_neg before]
      exact head?_toDigits_ne_zero (Nat.pos_of_ne_zero nonzero)
  · refine ⟨['0'], List.replicate (places - text.length) '0' ++ text, ?_, by simp, ?_, ?_, ?_,
      .inl rfl⟩
    · simp only [pointed, if_neg some, Int.toNat_natCast]
      exact if_neg room
    · rw [List.length_append, List.length_replicate]
      omega
    · intro c inside
      simp only [List.cons_append, List.nil_append, List.mem_cons, List.mem_append,
        List.mem_replicate] at inside
      rcases inside with rfl | ⟨_, rfl⟩ | inside
      · decide
      · decide
      · exact isDigit_of_mem_toDigits inside
    · have zeros : ['0'] ++ (List.replicate (places - text.length) '0' ++ text) =
          List.replicate (places - text.length + 1) '0' ++ text := rfl
      rw [zeros, Literal.digitsValue_eq, Nat.ofDigitChars_append, Nat.ofDigitChars_replicate_zero,
        Nat.mul_zero]
      exact Nat.ofDigitChars_ten_toDigits

/-- The digits of a decimal literal, and the point in it. -/
theorem literal_split {d : Decimal} (pointed : d.Pointed) (unsigned : 0 ≤ d.digits)
    (fractional : 0 < d.scale) :
    ∃ whole fraction, Split d.digits.toNat d.scale.toNat whole fraction ∧
      d.literal = String.ofList (whole ++ '.' :: fraction) := by
  obtain ⟨digits, scale⟩ := d
  obtain ⟨digits, rfl⟩ := Int.eq_ofNat_of_zero_le unsigned
  obtain ⟨places, rfl⟩ := Int.eq_ofNat_of_zero_le (Int.le_of_lt fractional)
  have pos : 0 < places := by simpa using fractional
  obtain ⟨whole, fraction, split⟩ := pointed_split digits pos
  refine ⟨whole, fraction, split, ?_⟩
  have nonzero : (digits : Int) ≠ 0 := pointed.1
  have few : ¬ (places : Int) - digitCount digits > 5 := Int.not_lt.2 pointed.2
  have sign : ¬ (digits : Int) < 0 := by omega
  simp only [literal, if_neg nonzero, signText, if_neg sign, if_neg few, Int.natAbs_natCast,
    split.text, List.nil_append]

end Decimal

theorem Decimal.Split.fraction_ne_nil {digits places : Nat} {whole fraction : List Char}
    (split : Split digits places whole fraction) (pos : 0 < places) : fraction ≠ [] := by
  rintro rfl
  have none : 0 = places := split.length
  omega

theorem Literal.dec?_literal {d : Decimal} (pointed : d.Pointed) (unsigned : 0 ≤ d.digits)
    (fractional : 0 < d.scale) : dec? d.literal = some d := by
  obtain ⟨whole, fraction, split, text⟩ := Decimal.literal_split pointed unsigned fractional
  have read := dec?_of_digits split.nonempty (split.fraction_ne_nil (by omega))
    (fun c inside => split.numeral c (List.mem_append_left _ inside))
    (fun c inside => split.numeral c (List.mem_append_right _ inside))
  rw [text, read, split.value, split.length, Int.toNat_of_nonneg unsigned,
    Int.toNat_of_nonneg (Int.le_of_lt fractional)]

/-! ### Strings -/

/-- The quote after an open text closes it. -/
theorem StringLiteral.Opened.findStringEnd {body : List Char} (opened : Opened body)
    (rest : List Char) : Scan.findStringEnd (body ++ '"' :: rest) = .closed body rest := by
  induction opened with
  | nil => rfl
  | plain quote slash more ih =>
    rw [List.cons_append, Scan.findStringEnd, ih]
    · rfl
    · exact quote
    · exact fun eq _ => slash eq
    · exact fun _ _ eq _ => slash eq
  | escape known more ih =>
    simp only [List.cons_append, Scan.findStringEnd, known, ↓reduceIte, ih]
    rfl

namespace StringLiteral

/-- The text that the inside of a string literal denotes: each escape in it stands for its
character, and any other character for itself. -/
inductive Denotes : List Char → List Char → Prop where
  | nil : Denotes [] []
  | plain {c : Char} {body text : List Char} (slash : c ≠ '\\') (more : Denotes body text) :
    Denotes (c :: body) (c :: text)
  | escape {letter c : Char} {body text : List Char} (known : escaped? letter = some c)
    (more : Denotes body text) : Denotes ('\\' :: letter :: body) (c :: text)

theorem Denotes.resolve {body text : List Char} (h : Denotes body text) :
    resolve body = .ok text := by
  induction h with
  | nil => rfl
  | plain slash more ih =>
    rw [StringLiteral.resolve, ih]
    · rfl
    · exact fun eq _ => slash eq
    · exact fun _ _ eq _ => slash eq
  | escape known more ih =>
    simp only [StringLiteral.resolve, known, ih]
    rfl

theorem Opened.denotes {body : List Char} (opened : Opened body) : ∃ text, Denotes body text := by
  induction opened with
  | nil => exact ⟨[], .nil⟩
  | plain _ slash _ ih =>
    obtain ⟨text, more⟩ := ih
    exact ⟨_, .plain slash more⟩
  | escape known _ ih =>
    obtain ⟨text, more⟩ := ih
    obtain ⟨c, eq⟩ := Option.isSome_iff_exists.1 known
    exact ⟨_, .escape eq more⟩

theorem inner?_quoted (body : List Char) : inner? ('"' :: body ++ ['"']) = some body := by
  simp [inner?]

theorem Denotes.value {body text : List Char} (h : Denotes body text) :
    value (String.ofList ('"' :: body ++ ['"'])) = .ok (String.ofList text) := by
  rw [StringLiteral.value, String.toList_ofList, inner?_quoted]
  simp only [h.resolve]
  rfl

end StringLiteral

namespace Text

/-- A character between quotes: it stands for itself, or an escape that string literals know stands
for it. -/
inductive Quoted : Char → List Char → Prop where
  | plain {c : Char} (quote : c ≠ '"') (slash : c ≠ '\\') : Quoted c [c]
  | escaped {c letter : Char} (known : StringLiteral.escaped? letter = some c) :
    Quoted c ['\\', letter]

theorem quoted_escape {c : Char} (h : Quotable c) : Quoted c (escape '"' c) := by
  rcases h with plain | special
  · rw [plain]
    refine .plain ?_ ?_
    · rintro rfl
      exact absurd plain (by decide)
    · rintro rfl
      exact absurd plain (by decide)
  · simp only [List.mem_cons, List.not_mem_nil, or_false] at special
    rcases special with rfl | rfl | rfl | rfl | rfl | rfl <;> exact .escaped rfl

end Text

namespace StringLiteral

/-- Quoted text goes on to the closing quote, and denotes the text that was quoted. -/
theorem opened_quoted {s : List Char} (h : ∀ c ∈ s, Text.Quotable c) :
    Opened (s.flatMap (Text.escape '"')) ∧ Denotes (s.flatMap (Text.escape '"')) s := by
  induction s with
  | nil => exact ⟨.nil, .nil⟩
  | cons c s ih =>
    obtain ⟨opened, denotes⟩ := ih fun d inside => h d (List.mem_cons_of_mem _ inside)
    have first := Text.quoted_escape (h c (List.mem_cons_self ..))
    rw [List.flatMap_cons]
    generalize Text.escape '"' c = text at first ⊢
    cases first with
    | plain quote slash => exact ⟨.plain quote slash opened, .plain slash denotes⟩
    | escaped known =>
      exact ⟨.escape (Option.isSome_of_eq_some known) opened, .escape known denotes⟩

theorem value_quote {s : String} (h : ∀ c ∈ s.toList, Text.Quotable c) :
    value (Text.quote s) = .ok s := by
  have read := (opened_quoted h).2.value
  rwa [String.ofList_toList] at read

end StringLiteral

/-! ### All literals -/

/-- A literal is one token. -/
theorem Literal.lexes {l : Literal} (plain : l.Plain) (unsigned : l.Unsigned) {cs : List Char}
    {words : List Word} (apart : Lexes.Separated cs) (h : Lexes cs words) :
    Lexes (l.source.toList ++ cs) (l.word :: words) := by
  cases l with
  | int n =>
    obtain ⟨n, rfl⟩ := Int.eq_ofNat_of_zero_le unsigned
    have lexed := Lexes.int Nat.toDigits_ne_nil (fun _ => isDigit_of_mem_toDigits (n := n)) apart h
    rwa [← toList_toString_natCast, String.ofList_toList] at lexed
  | dec d =>
    obtain ⟨whole, fraction, split, text⟩ :=
      Decimal.literal_split plain unsigned.1 unsigned.2
    have lexed := Lexes.dec split.nonempty
      (split.fraction_ne_nil (Int.pos_iff_toNat_pos.1 unsigned.2))
      (fun c inside => split.numeral c (List.mem_append_left _ inside))
      (fun c inside => split.numeral c (List.mem_append_right _ inside)) apart h
    simp only [source, word, text, String.toList_ofList, List.append_assoc, List.cons_append]
    exact lexed
  | str s =>
    have lexed := Lexes.string ((StringLiteral.opened_quoted plain).1.findStringEnd cs) h
    simpa [source, word, Text.quote] using lexed
  | bool b =>
    cases b with
    | true => exact Lexes.keyword .true apart h
    | false => exact Lexes.keyword .false apart h

end ExprLang
