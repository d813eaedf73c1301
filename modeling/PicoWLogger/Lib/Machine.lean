import Mathlib.Data.List.Basic
import Mathlib.Data.List.Induction

/-! Machines whose step on a labelled action may be refused: runs over lists of actions, the
states reached by steps that meet a condition, and the rule that carries an invariant along. -/

namespace Machine
variable {σ α : Type*} {step : σ → α → Option σ} {ok : σ → α → Prop} {first s t : σ}

/-- The state after all the actions, unless one of them is refused. -/
def run (step : σ → α → Option σ) : σ → List α → Option σ
  | s, [] => some s
  | s, action :: rest => (step s action).bind fun t => run step t rest

/-- The states reached from `first` when every step meets `ok`. -/
inductive Reach (step : σ → α → Option σ) (ok : σ → α → Prop) (first : σ) : σ → Prop where
  | start : Reach step ok first first
  | step {s t action} (before : Reach step ok first s) (met : ok s action) (taken : step s action = some t) :
      Reach step ok first t

theorem run_append (front back : List α) :
    run step s (front ++ back) = (run step s front).bind fun t => run step t back := by
  induction front generalizing s with
  | nil => rfl
  | cons action rest ih =>
    rw [List.cons_append, run, run, Option.bind_assoc]
    exact congrArg _ (funext fun _ => ih)

/-- The steps of a run, each with the state it starts from. -/
def steps (step : σ → α → Option σ) : σ → List α → List (σ × α)
  | _, [] => []
  | s, action :: rest => (s, action) :: (step s action).elim [] fun t => steps step t rest

theorem run_concat {action : α} (actions : List α) :
    run step s (actions ++ [action]) = some t ↔ ∃ middle, run step s actions = some middle ∧ step middle action = some t := by
  have last (middle : σ) : run step middle [action] = step middle action := by
    rw [run]
    cases step middle action <;> rfl
  simp only [run_append, Option.bind_eq_some_iff, last]

theorem steps_concat {action : α} {actions : List α} {middle : σ} (ran : run step s actions = some middle) :
    steps step s (actions ++ [action]) = steps step s actions ++ [(middle, action)] := by
  induction actions generalizing s with
  | nil =>
    cases ran
    simp only [List.nil_append, steps]
    cases step middle action <;> rfl
  | cons first rest ih =>
    obtain ⟨next, stepped, later⟩ := Option.bind_eq_some_iff.mp ran
    rw [List.cons_append, steps, steps, stepped, Option.elim_some, Option.elim_some, ih later]
    rfl

theorem steps_actions {actions : List α} (ran : run step s actions = some t) : (steps step s actions).map Prod.snd = actions := by
  induction actions generalizing s with
  | nil => rfl
  | cons action rest ih =>
    obtain ⟨next, stepped, later⟩ := Option.bind_eq_some_iff.mp ran
    rw [steps, List.map_cons, stepped, Option.elim_some, ih later]

/-- What holds at the start and is kept by every step, given the steps so far, holds after a run. -/
theorem run_invariant {actions : List α} (holds : σ → List (σ × α) → Prop) (initial : holds s [])
    (kept : ∀ {s t action past}, holds s past → step s action = some t → holds t (past ++ [(s, action)]))
    (ran : run step s actions = some t) : holds t (steps step s actions) := by
  induction actions using List.reverseRecOn generalizing t with
  | nil =>
    cases ran
    exact initial
  | append_singleton actions action ih =>
    obtain ⟨middle, before, last⟩ := (run_concat actions).mp ran
    rw [steps_concat before]
    exact kept (ih before) last

theorem Reach.invariant (reached : Reach step ok first s) (holds : σ → Prop) (initial : holds first)
    (kept : ∀ {s t action}, holds s → ok s action → step s action = some t → holds t) : holds s := by
  induction reached with
  | start => exact initial
  | step before met taken ih => exact kept ih met taken

theorem Reach.run {actions : List α} (reached : Reach step ok first s)
    (met : ∀ front action rest, actions = front ++ action :: rest → ∀ middle, Machine.run step s front = some middle →
      ok middle action)
    (taken : Machine.run step s actions = some t) : Reach step ok first t := by
  induction actions generalizing s with
  | nil =>
    cases taken
    exact reached
  | cons action rest ih =>
    obtain ⟨next, stepped, later⟩ := Option.bind_eq_some_iff.mp taken
    refine ih (.step reached (met [] action rest rfl s rfl) stepped) ?_ later
    intro front last back same middle ran
    refine met (action :: front) last back (by rw [same]; rfl) middle ?_
    rw [Machine.run, stepped, Option.bind_some, ran]

end Machine
