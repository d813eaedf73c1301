import Mathlib.Algebra.Order.Ring.Abs
import Mathlib.Data.Int.DivMod
import Mathlib.Tactic.NormNum

/-! Arithmetic on signed machine integers whose overflow is undefined: every result is checked, and a computation is
described by what it needs to stay defined. -/

namespace CheckedInt

inductive Fault where
  | overflow
  | division
  deriving DecidableEq

abbrev Checked := Except Fault

/-- A value of the signed type with `width` bits beside the sign. -/
def Fits (width : Nat) (x : Int) : Prop := -2 ^ width ≤ x ∧ x < 2 ^ width

instance (width : Nat) (x : Int) : Decidable (Fits width x) := inferInstanceAs (Decidable (_ ∧ _))

def checked (width : Nat) (x : Int) : Checked Int := if Fits width x then .ok x else .error .overflow

/-- A shift to the right keeps the sign and rounds down. -/
def shr (x : Int) (k : Nat) : Int := x / 2 ^ k

/-- `x / y`, undefined for a divisor of zero and for the minimum by -1. -/
def divide (width : Nat) (x y : Int) : Checked Int :=
  if y = 0 ∨ x = -2 ^ width ∧ y = -1 then .error .division else .ok (x.tdiv y)

theorem Fits.of_abs {width : Nat} {x : Int} (small : |x| < 2 ^ width) : Fits width x := by
  obtain ⟨low, high⟩ := abs_lt.mp small
  exact ⟨low.le, high⟩

theorem Fits.bound {width : Nat} {x : Int} (fits : Fits width x) : |x| ≤ 2 ^ width :=
  abs_le.mpr ⟨fits.1, fits.2.le⟩

section Bounds

theorem abs_mul_le {x y a b : Int} (left : |x| ≤ a) (right : |y| ≤ b) : |x * y| ≤ a * b := by
  rw [abs_mul]
  exact mul_le_mul left right (abs_nonneg y) ((abs_nonneg x).trans left)

theorem abs_shr_le {x bound : Int} {k : Nat} (small : |x| ≤ bound * 2 ^ k) : |shr x k| ≤ bound := by
  have positive : (0 : Int) < 2 ^ k := by positivity
  obtain ⟨low, high⟩ := abs_le.mp small
  rw [shr]
  apply abs_le.mpr
  constructor
  · rw [Int.le_ediv_iff_mul_le positive, neg_mul]
    exact low
  · exact Int.ediv_le_of_le_mul positive high

end Bounds

/-- The computation gives the value when its needs are met, and overflows when they are not. -/
structure Exact {α : Type} (m : Checked α) (needs : Prop) (value : α) : Prop where
  ok : needs → m = .ok value
  overflow : ¬ needs → m = .error .overflow

namespace Exact
variable {α : Type} {width : Nat} {x y : Int} {f : Int → Checked α} {m : Checked α} {needs : Prop} {value : α}

theorem pure (value : α) : Exact (Pure.pure value) True value := ⟨fun _ => rfl, fun missed => absurd trivial missed⟩

/-- A result that always fits asks for nothing … -/
theorem always (fits : Fits width x) (rest : Exact (f x) needs value) : Exact (checked width x >>= f) needs value := by
  have here : checked width x >>= f = f x := by
    rw [checked, if_pos fits]
    rfl
  rw [here]
  exact rest

/-- … any other asks to fit, and what follows may use that it does. -/
theorem need (rest : Fits width x → Exact (f x) needs value) :
    Exact (checked width x >>= f) (Fits width x ∧ needs) value := by
  by_cases fits : Fits width x
  · have here := always fits (rest fits)
    exact ⟨fun met => here.ok met.2, fun missed => here.overflow fun met => missed ⟨fits, met⟩⟩
  · refine ⟨fun met => absurd met.1 fits, fun _ => ?_⟩
    rw [checked, if_neg fits]
    rfl

theorem divide (nonzero : y ≠ 0) (above : x ≠ -2 ^ width) (rest : Exact (f (x.tdiv y)) needs value) :
    Exact (CheckedInt.divide width x y >>= f) needs value := by
  have here : CheckedInt.divide width x y >>= f = f (x.tdiv y) := by
    rw [CheckedInt.divide, if_neg]
    · rfl
    · rintro (zero | ⟨least, _⟩)
      · exact nonzero zero
      · exact above least
  rw [here]
  exact rest

theorem branch {c : Prop} [Decidable c] {m' : Checked α} {needs' : Prop} {value' : α} (yes : c → Exact m needs value)
    (no : ¬ c → Exact m' needs' value') :
    Exact (if c then m else m') ((c → needs) ∧ (¬ c → needs')) (if c then value else value') := by
  by_cases holds : c
  · simpa [holds] using yes holds
  · simpa [holds] using no holds

theorem choice {c : Prop} [Decidable c] (yes no : α) :
    Exact (if c then Pure.pure yes else Pure.pure no) True (if c then yes else no) := by
  by_cases holds : c
  · simpa [holds] using pure yes
  · simpa [holds] using pure no

theorem bind {β : Type} {g : α → Checked β} {needs' : Prop} {result : β} (first : Exact m needs value)
    (rest : needs → Exact (g value) needs' result) : Exact (m >>= g) (needs ∧ needs') result := by
  by_cases met : needs
  · rw [first.ok met]
    have later := rest met
    exact ⟨fun both => later.ok both.2, fun missed => later.overflow fun more => missed ⟨met, more⟩⟩
  · rw [first.overflow met]
    exact ⟨fun both => absurd both.1 met, fun _ => rfl⟩

theorem congr {needs' : Prop} (exact : Exact m needs value) (same : needs ↔ needs') : Exact m needs' value := by
  rwa [propext same] at exact

theorem isOk_iff (exact : Exact m needs value) : (∃ result, m = .ok result) ↔ needs := by
  constructor
  · rintro ⟨result, done⟩
    by_contra missed
    rw [exact.overflow missed] at done
    cases done
  · exact fun met => ⟨value, exact.ok met⟩

theorem of_ok (exact : Exact m needs value) {result : α} (done : m = .ok result) : needs ∧ result = value := by
  have met := exact.isOk_iff.mp ⟨result, done⟩
  rw [exact.ok met] at done
  cases done
  exact ⟨met, rfl⟩

theorem no_division (exact : Exact m needs value) : m ≠ .error .division := by
  by_cases met : needs
  · rw [exact.ok met]
    exact fun same => by cases same
  · rw [exact.overflow met]
    exact fun same => by cases same

end Exact

end CheckedInt
