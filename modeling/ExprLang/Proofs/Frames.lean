import ExprLang.Proofs.Frames.Steady

set_option autoImplicit false

/-!
The discipline of frames. Evaluation, whatever it goes through, leaves as many frames as there were;
the names of the frames around the current one stay bound, variables to values of their types and
constants to their values. An entry has the type it was declared with as long as it is there.
-/

namespace ExprLang

open EvalM

variable {σ : Type}

theorem Machine.faithful_watched {m : Machine σ} {labels : Scopes Label}
    (h : labels.Tracks m.scopes) : (m.watched labels).Faithful :=
  ⟨rfl, List.forall_mem_singleton.2 h⟩

/-- What is guarded holds of the outcome: the record is faithful even if the rounds were too few. -/
theorem EvalM.Guards.outcome [Sink σ] {x : EvalM (Watched σ) (Control Value)}
    {P : Scopes Label → Control Value → Scopes Label → Prop} (h : Guards x P)
    {m : Machine (Watched σ)} (faithful : m.Faithful) :
    (Machine.outcome x m).2.Faithful ∧
      ∀ result ∈ (Machine.outcome x m).1,
        P m.sink.labels result (Machine.outcome x m).2.sink.labels := by
  have ends := h m faithful
  unfold Ends at ends
  unfold Machine.outcome
  cases ran : x.run m with
  | ok result m' =>
    rw [ran] at ends
    exact ⟨ends.1, fun _ same => Option.some.inj same ▸ ends.2⟩
  | error e m' =>
    rw [ran] at ends
    exact ⟨ends, by rintro _ ⟨⟩⟩

/-- With the labels that the frames had themselves, what tracks is what is kept. -/
theorem Frame.forall₂_kept {fs gs : List (Frame Value)}
    (h : List.Forall₂ Frame.Tracks (fs.map Frame.labels) gs) : List.Forall₂ Frame.Kept fs gs := by
  rw [List.forall₂_map_left_iff] at h
  exact h.imp fun _ _ => Frame.Tracks.kept

/-- Evaluation keeps the frames around the current one, and a block keeps the current one as well.
Under observation, all entries fit their labels at every moment of the run, up to the last. -/
theorem evaluation_keeps_frames [Sink σ] (rounds : Nat) (m : Machine σ) (e : Expr) :
    (∀ result m', m.evalExpr rounds e = (some result, m') →
      m'.scopes.depth = m.scopes.depth ∧
      List.Forall₂ Frame.Kept m.scopes.outer m'.scopes.outer ∧
      ((∃ body span, e = .block body span) → m.scopes.current.Kept m'.scopes.current)) ∧
    ∀ labels : Scopes Label, labels.Tracks m.scopes →
      ∃ result watched, (m.watched labels).watchExpr rounds e = (result, watched) ∧
        m.evalExpr rounds e = (result, watched.unwatched) ∧
        watched.sink.moments.head? = some ⟨watched.sink.labels, watched.scopes⟩ ∧
        ∀ moment ∈ watched.sink.moments, moment.labels.Tracks moment.scopes := by
  have same (labels : Scopes Label) := (m.watched labels).watchExpr_unwatched rounds e
  refine ⟨?_, fun labels tracks => ?_⟩
  · intro result m' ran
    -- Observed with the labels of what is there, the run ends with the same outer labels.
    let watched := (m.watched m.scopes.labels).watchExpr rounds e
    have start := Machine.faithful_watched m.scopes.tracks_labels
    obtain ⟨ended, after⟩ : result ∈ watched.1 ∧ watched.2.unwatched = m' :=
      Prod.mk.inj ((same m.scopes.labels).symm.trans ran)
    have scopes : watched.2.scopes = m'.scopes := congrArg Machine.scopes after
    obtain ⟨faithful, steady⟩ := (e.steady_eval (guarding_watching σ) rounds).outcome start
    have tracks := faithful.tracks
    have outer := tracks.outer
    rw [(steady result ended).1] at outer
    have kept : List.Forall₂ Frame.Kept m.scopes.outer m'.scopes.outer :=
      scopes ▸ Frame.forall₂_kept outer
    refine ⟨kept.length_eq.symm, kept, ?_⟩
    rintro ⟨body, span, rfl⟩
    have still := Expr.still_eval_block (guarding_watching σ) rounds body span
    have labels := (still.outcome start).2 result ended
    have current := tracks.current
    rw [labels] at current
    exact scopes ▸ current.kept
  · have start := Machine.faithful_watched tracks
    obtain ⟨faithful, -⟩ := (e.steady_eval (guarding_watching σ) rounds).outcome start
    exact ⟨_, _, rfl, same labels, faithful.present, faithful.always⟩

section Shadowing

private def unplaced : Span := ⟨0, 0⟩

private def numeral (n : Int) : Expr := .literal (.int n) unplaced

private def text (s : String) : Expr := .literal (.str s) unplaced

private def named (name : String) : Ident := ⟨name, unplaced⟩

/-- A variable at the root, and a constant in the frame inside. -/
def twoFrames : Machine Buffer :=
  ⟨⟨⟨[("k", ⟨.int 5, .const⟩)]⟩, [⟨[("n", ⟨.int 0, .var⟩)]⟩]⟩, .empty, #[], 0⟩

/-- A block in which a loop has a variable where a constant stands. The loop writes to the root,
and to its variable, first a value of its type and then one of another; after the loop the constant
is written to, and a truth value declared by a number. -/
def shadowing : Block :=
  .mk
    [.declare (.mk .const (named "x") (.int unplaced) (numeral 1) unplaced) unplaced,
      .loop [.mk .var (named "x") (.str unplaced) (text "a") unplaced]
        (.mk
          [.assign (named "n") (numeral 7) unplaced, .assign (named "x") (text "b") unplaced,
            .assign (named "x") (numeral 2) unplaced, .exit .break_ none unplaced] unplaced)
        unplaced,
      .assign (named "x") (numeral 3) unplaced,
      .declare (.mk .var (named "y") (.bool unplaced) (numeral 4) unplaced) unplaced] unplaced

theorem evaluation_keeps_frames_of_shadowing :
    ∃ result m', twoFrames.evalExpr 1 (.block shadowing unplaced) = (some result, m') ∧
      m'.errors.map (·.cause.code) = #["RT009", "RT008", "RT009"] ∧
      m'.scopes.depth = 1 ∧
      List.Forall₂ Frame.Kept twoFrames.scopes.outer m'.scopes.outer ∧
      twoFrames.scopes.current.Kept m'.scopes.current ∧
      ∃ watched,
        (twoFrames.watched twoFrames.scopes.labels).watchExpr 1 (.block shadowing unplaced) =
          (some result, watched) ∧
        watched.sink.moments.length = 14 ∧
        ∀ moment ∈ watched.sink.moments, moment.labels.Tracks moment.scopes := by
  obtain ⟨keeps, watches⟩ := evaluation_keeps_frames 1 twoFrames (.block shadowing unplaced)
  obtain ⟨result, watched, observed, ran, -, always⟩ :=
    watches twoFrames.scopes.labels twoFrames.scopes.tracks_labels
  have ended : (twoFrames.evalExpr 1 (.block shadowing unplaced)).1 = some (.normal .none) := by
    with_unfolding_all rfl
  have errors : (twoFrames.evalExpr 1 (.block shadowing unplaced)).2.errors.map (·.cause.code) =
      #["RT009", "RT008", "RT009"] := by decide +kernel
  have moments : ((twoFrames.watched twoFrames.scopes.labels).watchExpr 1
      (.block shadowing unplaced)).2.sink.moments.length = 14 := by decide +kernel
  rw [ran] at ended errors
  rw [observed] at moments
  cases ended
  obtain ⟨depth, outer, current⟩ := keeps _ _ ran
  exact ⟨_, _, ran, errors, depth, outer, current ⟨_, _, rfl⟩, watched, observed, moments, always⟩

end Shadowing

end ExprLang
