import Mathlib.Data.Nat.Find
import Mathlib.Data.Nat.Init
import Mathlib.Logic.Function.Iterate

/-! Machines that carry a clock: every state is due at a time, no step goes back, and two steps always move on. -/

namespace TimedRun
variable {σ : Type*} {step : σ → σ} {clock : σ → Nat} {first : σ} {n m i j : Nat}

structure Advances (step : σ → σ) (clock : σ → Nat) : Prop where
  never_back : ∀ s, clock s ≤ clock (step s)
  moves : ∀ s, clock s < clock (step (step s))

/-- State `i` is the first one due at time `n` or later. -/
structure Arrives (step : σ → σ) (clock : σ → Nat) (first : σ) (n i : Nat) : Prop where
  due : n ≤ clock (step^[i] first)
  earlier : ∀ l < i, clock (step^[l] first) < n

theorem Arrives.unique (one : Arrives step clock first n i) (other : Arrives step clock first n j) : i = j := by
  rcases Nat.lt_trichotomy i j with before | same | after
  · exact absurd one.due (Nat.not_le.mpr (other.earlier i before))
  · exact same
  · exact absurd other.due (Nat.not_le.mpr (one.earlier j after))

theorem Arrives.le (one : Arrives step clock first n i) (other : Arrives step clock first m j) (order : n ≤ m) : i ≤ j := by
  by_contra after
  exact absurd (Nat.le_trans order other.due) (Nat.not_le.mpr (one.earlier j (Nat.not_le.mp after)))

/-- What steps before time `n` keep still holds in the first state due then. -/
theorem Arrives.keeps (arrives : Arrives step clock first n j) (holds : σ → Prop) (before : i ≤ j)
    (initial : holds (step^[i] first)) (kept : ∀ s, holds s → clock s < n → holds (step s)) : holds (step^[j] first) := by
  have upTo (l : Nat) (after : i ≤ l) : l ≤ j → holds (step^[l] first) := by
    induction l, after using Nat.le_induction with
    | base => exact fun _ => initial
    | succ l _ ih =>
      intro inside
      rw [Function.iterate_succ_apply']
      exact kept _ (ih (Nat.le_of_succ_le inside)) (arrives.earlier l inside)
  exact upTo j before (Nat.le_refl _)

namespace Advances
variable (advances : Advances step clock)
include advances

theorem clock_le (before : i ≤ j) : clock (step^[i] first) ≤ clock (step^[j] first) := by
  induction j, before using Nat.le_induction with
  | base => exact Nat.le_refl _
  | succ l _ ih =>
    rw [Function.iterate_succ_apply']
    exact Nat.le_trans ih (advances.never_back _)

theorem arrives_succ (before : clock (step^[i] first) < n) (due : n ≤ clock (step^[i + 1] first)) :
    Arrives step clock first n (i + 1) :=
  ⟨due, fun _ earlier => Nat.lt_of_le_of_lt (advances.clock_le (Nat.le_of_lt_succ earlier)) before⟩

theorem exists_due (first : σ) (n : Nat) : ∃ i, n ≤ clock (step^[i] first) := by
  induction n with
  | zero => exact ⟨0, Nat.zero_le _⟩
  | succ n ih =>
    obtain ⟨i, due⟩ := ih
    refine ⟨i + 2, Nat.lt_of_le_of_lt due ?_⟩
    rw [Function.iterate_succ_apply', Function.iterate_succ_apply']
    exact advances.moves _

theorem exists_arrives (first : σ) (n : Nat) : ∃ i, Arrives step clock first n i := by
  classical
  have due := advances.exists_due first n
  exact ⟨Nat.find due, Nat.find_spec due, fun l before => Nat.not_le.mp (Nat.find_min due before)⟩

end Advances

end TimedRun
