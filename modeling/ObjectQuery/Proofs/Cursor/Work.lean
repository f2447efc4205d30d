import ObjectQuery.Cursor
import ObjectQuery.Proofs.Evaluation.Outcome

/-!
Steps of cursors, and the states that calls of a cursor lead to.
-/

namespace ObjectQuery

namespace Work

variable {σ τ α : Type}

/-- The progress that a step leaves, whatever its outcome. -/
def after (step : Work σ α) (progress : Progress σ) : Progress σ :=
  match step progress with
  | .ok _ last => last
  | .error _ last => last

theorem get_apply (progress : Progress σ) :
    (get : Work σ (Progress σ)) progress = .ok progress progress :=
  rfl

theorem own_apply (progress : Progress (Layer σ τ)) :
    (own : Work (Layer σ τ) τ) progress = .ok progress.state.own progress := rfl

theorem setOwn_apply (mine : τ) (progress : Progress (Layer σ τ)) :
    (setOwn mine : Work (Layer σ τ) Unit) progress =
      .ok () ⟨⟨progress.state.below, mine⟩, progress.trace⟩ := rfl

theorem evaluating_of_settles {run : EStateM EvalError Machine α} {context last : Context}
    {supply made : InstanceId} {result : Except EvalError α} {trace : Trace}
    (h : Settles run context supply ⟨result, last, trace, made⟩) (progress : Progress σ) :
    evaluating context supply run progress =
      .ok (result, last) ⟨progress.state, progress.trace ++ trace⟩ := by
  obtain ⟨leftover, h⟩ := h
  simp only [evaluating, Machine.start, h]
  cases result <;> rfl

theorem begun {step : Work (Layer σ (Option τ)) Unit} {progress : Progress (Layer σ (Option τ))}
    (h : progress.state.own.isSome) :
    (do if (← own).isNone then step : Work (Layer σ (Option τ)) Unit) progress =
      .ok () progress := by
  have hnone : progress.state.own.isNone = false := by simpa using h
  have hrun : (do if (← own).isNone then step : Work (Layer σ (Option τ)) Unit) progress =
      (if progress.state.own.isNone then step else pure ()) progress := rfl
  rw [hrun, hnone]
  rfl

theorem notBegun {step : Work (Layer σ (Option τ)) Unit}
    {progress : Progress (Layer σ (Option τ))} (h : progress.state.own = none) :
    (do if (← own).isNone then step : Work (Layer σ (Option τ)) Unit) progress = step progress := by
  have hrun : (do if (← own).isNone then step : Work (Layer σ (Option τ)) Unit) progress =
      (if progress.state.own.isNone then step else pure ()) progress := rfl
  rw [hrun, h]
  rfl

theorem below_setOwn {step : Work σ Unit} {mine : τ} (progress : Progress (Layer σ τ)) :
    (do below step; setOwn mine) progress =
      match step ⟨progress.state.below, progress.trace⟩ with
      | .ok _ after => .ok () ⟨⟨after.state, mine⟩, after.trace⟩
      | .error error after => .error error ⟨⟨after.state, progress.state.own⟩, after.trace⟩ := by
  simp only [Bind.bind, EStateM.bind, below]
  cases step ⟨progress.state.below, progress.trace⟩ <;> rfl

end Work

namespace Cursor

/-- What calls can lead to, from the start and in any order, whether they fail or not. -/
inductive Reached (cursor : Cursor) : Progress cursor.State → Prop where
  | start : Reached cursor ⟨cursor.start, .empty⟩
  | init {progress : Progress cursor.State} (before : Reached cursor progress) :
    Reached cursor (Work.after cursor.init progress)
  | next {progress : Progress cursor.State} (before : Reached cursor progress) :
    Reached cursor (Work.after cursor.next progress)

theorem Reached.invariant {cursor : Cursor} {p : cursor.State → Prop} (hstart : p cursor.start)
    (hinit : ∀ progress, p progress.state → p (Work.after cursor.init progress).state)
    (hnext : ∀ progress, p progress.state → p (Work.after cursor.next progress).state)
    {progress : Progress cursor.State} (h : cursor.Reached progress) : p progress.state := by
  induction h with
  | start => exact hstart
  | init _ ih => exact hinit _ ih
  | next _ ih => exact hnext _ ih

end Cursor

end ObjectQuery
