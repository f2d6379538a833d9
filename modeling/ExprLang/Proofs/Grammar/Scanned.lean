import ExprLang.Proofs.RoundTrip.Literals
import ExprLang.Proofs.Scanning.Cuts

set_option autoImplicit false

/-!
What is cut off as a token is a lexeme of its kind. It is not the end mark, and if it is a literal
it has a value.
-/

namespace ExprLang

/-- The texts that tokens of a kind can have. -/
inductive Lexeme : TokenKind → List Char → Prop where
  | symbol (s : Symbol) : Lexeme (.symbol s) s.spelling.toList
  | keyword (k : Keyword) : Lexeme (.keyword k) k.spelling.toList
  | name {s : String} (proper : IsName s) : Lexeme .ident s.toList
  | int {digits : List Char} (nonempty : digits ≠ []) (all : ∀ c ∈ digits, c.isDigit = true) :
    Lexeme .int digits
  | dec {whole fraction : List Char} (nonempty : whole ≠ []) (follows : fraction ≠ [])
    (before : ∀ c ∈ whole, c.isDigit = true) (after : ∀ c ∈ fraction, c.isDigit = true) :
    Lexeme .dec (whole ++ '.' :: fraction)
  | string {body : List Char} (opened : StringLiteral.Opened body) :
    Lexeme .string ('"' :: body ++ ['"'])

/-- Whether a token can have the kind and the lexeme: literals need a value, and the end mark is no
token. -/
def TokenKind.Denotes (kind : TokenKind) (lexeme : String) : Prop :=
  match kind with
  | int => ∃ n, Literal.int? lexeme = some n
  | dec => ∃ d, Literal.dec? lexeme = some d
  | string => ∃ s, StringLiteral.value lexeme = .ok s
  | eof => False
  | symbol _ | keyword _ | ident => True

theorem Lexeme.denotes {kind : TokenKind} {lexeme : List Char} (h : Lexeme kind lexeme) :
    kind.Denotes (String.ofList lexeme) := by
  cases h with
  | symbol => trivial
  | keyword => trivial
  | name => trivial
  | int nonempty all => exact ⟨_, Literal.int?_of_digits nonempty all⟩
  | dec nonempty follows before after =>
    exact ⟨_, Literal.dec?_of_digits nonempty follows before after⟩
  | string opened =>
    obtain ⟨text, denotes⟩ := opened.denotes
    exact ⟨_, denotes.value⟩

theorem Lexeme.ne_eof {kind : TokenKind} {lexeme : List Char} (h : Lexeme kind lexeme) :
    kind ≠ .eof := by
  rintro rfl
  cases h

/-! ### What is cut -/

namespace Scan

theorem lexeme_of_cutString {cs : List Char} {kind : TokenKind}
    (h : (cutString cs).found = .ok kind) : Lexeme kind (cutString cs).taken := by
  have ending := findStringEnd_covers cs
  unfold cutString at h ⊢
  split at h
  next body rest closed =>
    cases h
    rw [closed] at ending
    exact .string ending.2
  next => cases h
  next => cases h

theorem lexeme_of_cutNumber {c : Char} (digit : c.isDigit = true) {cs : List Char}
    {kind : TokenKind} (h : (cutNumber (c :: cs)).found = .ok kind) :
    Lexeme kind (cutNumber (c :: cs)).taken := by
  have digits (ds : List Char) : ∀ x ∈ ds.takeWhile Char.isDigit, x.isDigit = true :=
    List.all_eq_true.1 List.all_takeWhile
  have nonempty := takeWhile_ne_nil digit cs
  unfold cutNumber at h ⊢
  split at h
  next d rest point =>
    dsimp only at h ⊢
    split at h
    next digit' =>
      cases h
      rw [if_pos digit']
      exact .dec nonempty (takeWhile_ne_nil digit' rest) (digits _) (digits _)
    next other =>
      cases h
      rw [if_neg other]
      exact .int nonempty (digits _)
  next =>
    cases h
    exact .int nonempty (digits _)

theorem lexeme_of_cutWord {c : Char} (alpha : c.isAlpha = true) {cs : List Char}
    {kind : TokenKind} (h : (cutWord (c :: cs)).found = .ok kind) :
    Lexeme kind (cutWord (c :: cs)).taken := by
  simp only [cutWord] at h ⊢
  split at h
  next k reserved =>
    cases h
    have spelled : k.spelling = String.ofList ((c :: cs).takeWhile Char.isAlpha) := by
      simpa using List.find?_some reserved
    have lexeme := Lexeme.keyword k
    rwa [spelled, String.toList_ofList] at lexeme
  next free =>
    cases h
    have name : IsName (String.ofList ((c :: cs).takeWhile Char.isAlpha)) := by
      refine ⟨?_, ?_, free⟩
      · rw [String.toList_ofList]
        exact takeWhile_ne_nil alpha cs
      · rw [String.toList_ofList]
        exact List.all_eq_true.1 List.all_takeWhile
    have lexeme := Lexeme.name name
    rwa [String.toList_ofList] at lexeme

theorem lexeme_of_cut {c : Char} {cs : List Char} {kind : TokenKind}
    (h : (cut c cs).found = .ok kind) : Lexeme kind (cut c cs).taken := by
  unfold cut at h ⊢
  split at h
  next s _ =>
    cases h
    exact .symbol s
  next =>
    split at h
    next quote =>
      rw [if_pos quote]
      exact lexeme_of_cutString h
    next quote =>
      rw [if_neg quote]
      split at h
      next digit =>
        rw [if_pos digit]
        exact lexeme_of_cutNumber digit h
      next digit =>
        rw [if_neg digit]
        split at h
        next alpha =>
          rw [if_pos alpha]
          exact lexeme_of_cutWord alpha h
        next => cases h

end Scan

end ExprLang
