import ExprLang.Proofs.CheckerExits
import ExprLang.Proofs.EvalRun
import ExprLang.Proofs.WellTyped

set_option autoImplicit false

/-!
The checker and the machine side by side. Their states agree when scopes are in step, nesting is
the same, and nothing unforeseen has been noted. `Meets` says of a check and an evaluation that
they lead from agreeing states to agreeing states, as long as the checker has no complaint.

All of it comes in two strengths. If `typed` holds, every value in reach is of its type all the way
down, and then results and errors are foreseen by the checker. Without it only the scopes are
followed, and values need to have the right type on the outside only.
-/

namespace ExprLang

/-- The errors that typing does not exclude. -/
def RuntimeError.isExpected : RuntimeError → Bool
  | operation error => error.isExpected
  | _ => false

/-- Whether the error is about a name that is not bound. -/
def RuntimeError.isUnbound : RuntimeError → Bool
  | identifierNotFound _ => true
  | _ => false

namespace Soundness

variable {σ α β γ δ : Type} (typed : Prop) (base : Array (Located RuntimeError))

/-- What a bound name holds, against the type it is declared with. -/
def Holds (t : Ty) (v : Value) : Prop :=
  v.type = t ∧ (typed → v.HasType t)

/-- What may be noted in a run. -/
def Allowed (cause : RuntimeError) : Prop :=
  cause.isUnbound = false ∧ (typed → cause.isExpected = true)

/-- Apart from errors that were there before, only allowed ones are noted. -/
def Foreseen (m : Machine σ) : Prop :=
  ∀ e ∈ m.errors, e ∈ base ∨ Allowed typed e.cause

/-- The states of the checker and the machine agree. -/
structure Agree (c : Checker) (m : Machine σ) : Prop where
  depth : m.depth = c.depth
  scopes : c.scopes.InStep (Holds typed) m.scopes
  live : typed → c.Live
  errors : Foreseen typed base m

/-- From agreeing states, a check without complaints and an evaluation lead to agreeing states with
related results. -/
def Meets (c : Checker) (m : Machine σ) (check : CheckM α) (eval : EvalM σ β)
    (related : α → β → Checker → Prop) : Prop :=
  Agree typed base c m → (check.run c).2.Clean →
    eval.Ends m
      (fun b m' => Agree typed base (check.run c).2 m' ∧ related (check.run c).1 b (check.run c).2)
      (Foreseen typed base)

variable {typed base} {c c' : Checker} {m m' : Machine σ}

theorem Foreseen.noted (h : Foreseen typed base m) {cause : RuntimeError} (span : Span)
    (allowed : Allowed typed cause) : Foreseen typed base (m.noted cause span) := by
  intro e inside
  rcases Array.mem_push.1 inside with before | rfl
  · exact h e before
  · exact .inr allowed

/-- The machine has gone on, but not where the checker looks. -/
theorem Agree.machine (h : Agree typed base c m) (depth : m'.depth = m.depth)
    (scopes : m'.scopes = m.scopes) (errors : Foreseen typed base m') : Agree typed base c m' :=
  ⟨depth.trans h.depth, scopes ▸ h.scopes, h.live, errors⟩

theorem Agree.noted (h : Agree typed base c m) {cause : RuntimeError} (span : Span)
    (allowed : Allowed typed cause) : Agree typed base c (m.noted cause span) :=
  h.machine rfl rfl (h.errors.noted span allowed)

/-- The checker has gone on over something that is not evaluated. -/
theorem Agree.checker (h : Agree typed base c m) (kept : c.Kept True 0 c') :
    Agree typed base c' m :=
  ⟨h.depth.trans kept.depth.symm, h.scopes.copied (kept.copied trivial),
    fun t => kept.live (h.live t), h.errors⟩

theorem Agree.insert (h : Agree typed base c m) (name : String) {t : Ty} {v : Value}
    (binding : Binding) (holds : Holds typed t v) :
    Agree typed base { c with scopes := c.scopes.insert name ⟨t, binding⟩ }
      { m with scopes := m.scopes.insert name ⟨v, binding⟩ } :=
  ⟨h.depth, h.scopes.insert name rfl holds, h.live, h.errors⟩

theorem Agree.erased (h : Agree typed base c m) (name : String) :
    Agree typed base (c.erased name) (m.erased name) :=
  ⟨h.depth, h.scopes.erase name, h.live, h.errors⟩

theorem Agree.deeper (h : Agree typed base c m) : Agree typed base c.deeper m.deeper :=
  ⟨congrArg (· + 1) h.depth, h.scopes, h.live, h.errors⟩

theorem Agree.shallower (h : Agree typed base c m) : Agree typed base c.shallower m.shallower :=
  ⟨congrArg (· - 1) h.depth, h.scopes, h.live, h.errors⟩

theorem Agree.entered (h : Agree typed base c m) : Agree typed base c.entered m.entered :=
  ⟨h.depth, h.scopes.enter, h.live, h.errors⟩

theorem Agree.opened (h : Agree typed base c m) : Agree typed base c.opened m :=
  ⟨h.depth, h.scopes, fun _ => c.live_opened, h.errors⟩

variable (typed base) in
/-- The states agree but for the current frame, which is about to be left. -/
structure AgreeOutside (c : Checker) (m : Machine σ) : Prop where
  depth : m.depth = c.depth
  outer : Scopes.FramesInStep (Holds typed) c.scopes.outer m.scopes.outer
  errors : Foreseen typed base m

theorem AgreeOutside.before {quiet : Prop} {k : Nat} (h : AgreeOutside typed base c' m)
    (kept : c.Kept quiet k c') : AgreeOutside typed base c m :=
  ⟨h.depth.trans kept.depth, kept.outer ▸ h.outer, h.errors⟩

theorem Agree.outside (h : Agree typed base c m) : AgreeOutside typed base c m :=
  ⟨h.depth, h.scopes.outer, h.errors⟩

/-- Once the frame is left, the states agree again. -/
theorem AgreeOutside.left (h : AgreeOutside typed base c.entered m) (live : typed → c.Live) :
    Agree typed base c m.left :=
  ⟨h.depth, Scopes.InStep.exit h.outer rfl, live, h.errors⟩

namespace Meets

variable {related : α → β → Checker → Prop} {related' : γ → δ → Checker → Prop}

theorem pure {a : α} {b : β} (h : Agree typed base c m → c.Clean → related a b c) :
    Meets typed base c m (pure a) (pure b) related :=
  fun agree clean => (EvalM.ends_pure b).2 ⟨agree, h agree clean⟩

theorem mono {check : CheckM α} {eval : EvalM σ β} {weaker : α → β → Checker → Prop}
    (h : Meets typed base c m check eval related) (imp : ∀ a b c, related a b c → weaker a b c) :
    Meets typed base c m check eval weaker :=
  fun agree clean =>
    (h agree clean).mono (fun _ _ both => ⟨both.1, imp _ _ _ both.2⟩) fun _ out => out

/-- Where the checker keeps its bookkeeping, so it does here. -/
theorem kept {check : CheckM α} {eval : EvalM σ β} (h : Meets typed base c m check eval related)
    (balanced : CheckM.Balanced False check) :
    Meets typed base c m check eval (fun a b c' => related a b c' ∧ c.Kept False 0 c') :=
  fun agree clean =>
    (h agree clean).mono (fun _ _ both => ⟨both.1, both.2, balanced c⟩) fun _ out => out

/-- Both sides take a step and go on with related results. -/
theorem bind {x : CheckM α} {y : EvalM σ β} {f : α → CheckM γ} {g : β → EvalM σ δ}
    (first : Meets typed base c m x y related) (balanced : ∀ a, CheckM.Balanced False (f a))
    (second : ∀ a b c' m', related a b c' → Meets typed base c' m' (f a) (g b) related') :
    Meets typed base c m (x >>= f) (y >>= g) related' := by
  intro agree clean
  rw [CheckM.run_bind] at *
  have between : (x.run c).2.Clean := (balanced _ _).clean clean
  rw [EvalM.ends_bind]
  exact (first agree between).mono
    (fun b m' both => second _ b _ m' both.2 both.1 clean) fun _ out => out

/-- A complaint that is not made does no harm. -/
theorem reportIf {reason : Prop} [Decidable reason] {cause : TypeError} {span : Span}
    {next : Unit → CheckM α} {eval : EvalM σ β} (balanced : CheckM.Balanced False (next ()))
    (h : ¬ reason → Meets typed base c m (next ()) eval related) :
    Meets typed base c m
      (if reason then CheckM.report cause span >>= next else next ()) eval related := by
  intro agree clean
  rw [CheckM.run_reportIf] at *
  obtain ⟨none, same⟩ := Checker.clean_notedIf ((balanced _).clean clean)
  rw [same] at clean ⊢
  exact h none agree clean

/-- An error that may be noted does no harm. -/
theorem report {cause : RuntimeError} (allowed : Allowed typed cause) (span : Span)
    {check : CheckM α} {next : Unit → EvalM σ β}
    (h : Meets typed base c (m.noted cause span) check (next ()) related) :
    Meets typed base c m check (EvalM.report cause span >>= next) related := by
  intro agree clean
  rw [EvalM.ends_bind, EvalM.ends_report]
  exact h (agree.noted span allowed) clean

/-- What the checker goes over without a counterpart in the evaluation. -/
theorem skipped {check : CheckM α} {b : β} (balanced : CheckM.Balanced True check)
    (h : Agree typed base c m → (check.run c).2.Clean →
      related (check.run c).1 b (check.run c).2) :
    Meets typed base c m check (Pure.pure b) related :=
  fun agree clean => (EvalM.ends_pure b).2 ⟨agree.checker (balanced c), h agree clean⟩

/-- The same, with more to come on both sides. -/
theorem skip {check : CheckM α} {next : α → CheckM γ} {eval : EvalM σ β}
    {related : γ → β → Checker → Prop} (balanced : CheckM.Balanced True check)
    (h : Meets typed base (check.run c).2 m (next (check.run c).1) eval related) :
    Meets typed base c m (check >>= next) eval related :=
  fun agree clean => h (agree.checker (balanced c)) clean

end Meets

/-- The result of an evaluation against what the checker says of it: certain exits are exits, and
normal results are of their types. The value of an exit is of the type on record. -/
structure Fits (t : Control Ty) (r : Control Value) (c : Checker) : Prop where
  certain : t.isSignal = true → r.isSignal = true
  normal : ∀ s v, t = .normal s → r = .normal v → v.HasType s
  signal : r.isSignal = true → ∃ s, r.value.HasType s ∧ c.Records s

theorem Fits.of_normal {s : Ty} {v : Value} (h : v.HasType s) :
    Fits (.normal s) (.normal v) c := by
  refine ⟨nofun, fun s' v' hs hv => ?_, nofun⟩
  cases hs
  cases hv
  exact h

/-- An exit that fits goes on to fit as long as what is on record stays. -/
theorem Fits.mono {t : Control Ty} {r : Control Value} (h : Fits t r c)
    (records : ∀ s, c.Records s → c'.Records s) : Fits t r c' := by
  refine ⟨h.certain, h.normal, fun signal => ?_⟩
  obtain ⟨s, hasType, recorded⟩ := h.signal signal
  exact ⟨s, hasType, records s recorded⟩

/-- In a consumer, whichever way an expression is left, its value is of its type. -/
theorem Fits.value {t : Control Ty} {r : Control Value} (h : Fits t r c)
    (recorded : t.isSignal = true → c.Records t.value)
    (exits : ∀ s, c.Records s → c.exitType = some s)
    (same : ∀ type exit, t = .normal type → c.exitType = some exit → type = exit) :
    r.value.HasType t.value := by
  by_cases signal : r.isSignal = true
  · obtain ⟨s, hasType, records⟩ := h.signal signal
    have exit := exits s records
    suffices eq : t.value = s by rwa [eq]
    cases t with
    | normal type => exact same type s rfl exit
    | returned type | broke type =>
      have certain := exits type (recorded rfl)
      rw [exit] at certain
      exact (Option.some.inj certain).symm
  · cases t with
    | normal type =>
      cases r with
      | normal v => exact h.normal type v rfl rfl
      | returned | broke => exact absurd rfl signal
    | returned | broke => exact absurd (h.certain rfl) signal

variable (typed) in
/-- Results of expressions, under typing. -/
def Result (t : Control Ty) (r : Control Value) (c : Checker) : Prop :=
  typed → Fits t r c

variable (typed) in
/-- Values that are used, under typing. -/
def Used (t : Ty) (v : Value) (_ : Checker) : Prop :=
  typed → v.HasType t

namespace Meets

/-- Normal results come from used values. -/
theorem normal {check : CheckM Ty} {eval : EvalM σ Value}
    (h : Meets typed base c m check eval (Used typed)) :
    Meets typed base c m (do return .normal (← check)) (do return .normal (← eval))
      (Result typed) :=
  h.bind (fun _ => CheckM.balanced_pure _) fun _ _ _ _ used =>
    pure fun _ _ ht => .of_normal (used ht)

theorem nested (span : Span) {check : CheckM (Control Ty)} {eval : EvalM σ (Control Value)}
    (h : Meets typed base c.deeper m.deeper check eval (Result typed)) :
    Meets typed base c m (CheckM.nested span check) (EvalM.nested span eval) (Result typed) := by
  intro agree clean
  rw [CheckM.run_nested] at *
  by_cases deep : maxNesting ≤ c.depth
  · rw [if_pos deep] at clean
    exact absurd clean (c.not_clean_noted _ _)
  · rw [if_neg deep] at clean ⊢
    rw [EvalM.ends_nested, agree.depth, if_neg deep]
    refine (h agree.deeper clean).mono (fun r m' both => ⟨both.1.shallower, fun ht => ?_⟩)
      fun _ out => out
    have fits := both.2 ht
    exact ⟨fits.certain, fits.normal, fits.signal⟩

/-- A value in use: whichever way the expression is left, the value is of its type. -/
theorem asValue {e : Expr} {eval : EvalM σ (Control Value)}
    (h : Meets typed base c.opened m e.check eval (Result typed)) :
    Meets typed base c m (CheckM.asValue e.span e.check) (EvalM.asValue eval) (Used typed) := by
  intro agree clean
  have kept := e.anyhow_check c.opened
  obtain ⟨eq, same⟩ := CheckM.asValue_of_clean clean
  rw [eq] at clean ⊢
  have inner : (e.check.run c.opened).2.Clean := clean
  rw [EvalM.ends_asValue]
  refine (h agree.opened inner).mono (fun r m' both => ?_) fun _ out => out
  obtain ⟨agree', fits⟩ := both
  refine ⟨⟨agree'.depth, agree'.scopes, fun ht => kept.live_closed (agree.live ht), agree'.errors⟩,
    fun ht => ?_⟩
  exact (fits ht).value (e.recorded c.opened c.live_opened inner)
    (fun _ => kept.exitType_of_records) same

end Meets

end Soundness

end ExprLang
