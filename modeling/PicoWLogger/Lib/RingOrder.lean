import Mathlib.Data.List.Perm.Basic
import Mathlib.Data.List.Rotate

/-! A ring of `n` segments read round from one of them. Moving the starting point on by
one moves the items of a single segment from the front to the back. -/

universe u

namespace RingOrder
variable {α : Type u}

/-- The items of `count` segments in ring order, from segment `start` on. -/
def stretch (n count start : Nat) (segments : Nat → List α) : List α :=
  (List.range count).flatMap fun j => segments ((start + j) % n)

def unroll (n start : Nat) (segments : Nat → List α) : List α := stretch n n start segments

/-- The items of all segments but `start`, in ring order behind it. -/
def others (n start : Nat) (segments : Nat → List α) : List α := stretch n (n - 1) (start + 1) segments

theorem stretch_cons {n count start : Nat} (inside : start < n) (segments : Nat → List α) :
    stretch n (count + 1) start segments = segments start ++ stretch n count ((start + 1) % n) segments := by
  simp only [stretch, List.range_succ_eq_map, List.flatMap_cons, List.flatMap_map, Nat.add_zero,
    Nat.mod_eq_of_lt inside]
  congr 2
  funext j
  rw [Nat.mod_add_mod]
  congr 2
  omega

theorem stretch_mod (n count start : Nat) (segments : Nat → List α) :
    stretch n count (start % n) segments = stretch n count start segments := by
  simp only [stretch, Nat.mod_add_mod]

/-- The first item of a stretch is the first of some segment, with the same items ahead. -/
theorem stretch_first {n count start : Nat} (inside : start < n) {segments : Nat → List α} {first : α} {rest : List α}
    (ahead : stretch n count start segments = first :: rest) :
    ∃ k < n, ∃ left ≤ count, (segments k).head? = some first ∧ stretch n left k segments = first :: rest := by
  induction count generalizing start with
  | zero => cases ahead
  | succ count ih =>
    cases held : segments start with
    | nil =>
      rw [stretch_cons inside, held, List.nil_append] at ahead
      obtain ⟨k, bound, left, most, head, same⟩ := ih (Nat.mod_lt _ (by omega)) ahead
      exact ⟨k, bound, left, by omega, head, same⟩
    | cons item items =>
      refine ⟨start, inside, count + 1, Nat.le_refl _, ?_, ahead⟩
      rw [stretch_cons inside, held, List.cons_append] at ahead
      rw [held, List.head?_cons, (List.cons.inj ahead).1]

theorem unroll_eq {n start : Nat} (inside : start < n) (segments : Nat → List α) :
    unroll n start segments = segments start ++ others n start segments := by
  obtain ⟨m, rfl⟩ : ∃ m, n = m + 1 := ⟨n - 1, by omega⟩
  rw [unroll, others, ← stretch_mod _ _ (start + 1), stretch_cons inside, Nat.add_sub_cancel]

/-- Read round from the following segment, the items of `start` come last. -/
theorem unroll_next {n start : Nat} (inside : start < n) (segments : Nat → List α) :
    unroll n ((start + 1) % n) segments = others n start segments ++ segments start := by
  obtain ⟨m, rfl⟩ : ∃ m, n = m + 1 := ⟨n - 1, by omega⟩
  have last : (start + 1 + m) % (m + 1) = start := by
    rw [Nat.add_right_comm, Nat.add_assoc, Nat.add_mod_right, Nat.mod_eq_of_lt inside]
  rw [unroll, others, stretch_mod, Nat.add_sub_cancel]
  simp only [stretch, List.range_succ, List.flatMap_append, List.flatMap_singleton, last]

private theorem other_index {n start j : Nat} (inside : start < n) (before : j < n - 1) :
    (start + 1 + j) % n ≠ start := by
  intro same
  rcases Nat.lt_or_ge (start + 1 + j) n with below | above
  · rw [Nat.mod_eq_of_lt below] at same
    omega
  · rw [Nat.mod_eq_sub_mod above, Nat.mod_eq_of_lt (by omega)] at same
    omega

theorem others_update {n start : Nat} (inside : start < n) (segments : Nat → List α) (items : List α) :
    others n start (Function.update segments start items) = others n start segments := by
  simp only [others, stretch, List.flatMap_def]
  congr 1
  apply List.map_congr_left
  intro j member
  rw [Function.update_of_ne (other_index inside (List.mem_range.mp member))]

theorem mem_others {n start : Nat} (inside : start < n) {segments : Nat → List α} {item : α}
    (member : item ∈ others n start segments) : ∃ k < n, k ≠ start ∧ item ∈ segments k := by
  obtain ⟨j, bound, here⟩ := List.mem_flatMap.mp member
  exact ⟨_, Nat.mod_lt _ (by omega), other_index inside (List.mem_range.mp bound), here⟩

/-- Reading round from anywhere gives the items of all segments. -/
theorem unroll_perm (n start : Nat) (segments : Nat → List α) :
    (unroll n start segments).Perm ((List.range n).flatMap segments) := by
  have rotated : (List.range n).rotate start = (List.range n).map fun j => (start + j) % n := by
    apply List.ext_getElem
    · simp
    · intro i first last
      simp [List.getElem_rotate, Nat.add_comm]
  have order : unroll n start segments = ((List.range n).rotate start).flatMap segments := by
    rw [rotated, List.flatMap_map]
    rfl
  rw [order]
  exact (List.rotate_perm _ _).flatMap_right _

private theorem flatMap_single (n k : Nat) (item : α) :
    ((List.range n).flatMap fun j => if j = k then [item] else []) = if k < n then [item] else [] := by
  induction n with
  | zero => rfl
  | succ n ih =>
    rw [List.range_succ, List.flatMap_append, ih, List.flatMap_singleton]
    by_cases below : k < n
    · rw [if_pos below, if_neg (by omega), if_pos (by omega), List.append_nil]
    · by_cases here : n = k
      · rw [if_neg below, if_pos here, if_pos (by omega), List.nil_append]
      · rw [if_neg below, if_neg here, if_neg (by omega), List.nil_append]

/-- A list holds the items of its parts, when each item is in the part of exactly one segment. -/
theorem perm_parts {items : List α} {n : Nat} (part : Nat → α → Bool)
    (one : ∀ item ∈ items, ∃ k < n, ∀ j, part j item = decide (j = k)) :
    items.Perm ((List.range n).flatMap fun j => items.filter (part j)) := by
  induction items with
  | nil => simp
  | cons item rest ih =>
    obtain ⟨k, inside, here⟩ := one item List.mem_cons_self
    have split : ((List.range n).flatMap fun j => (item :: rest).filter (part j)) =
        (List.range n).flatMap fun j => (if j = k then [item] else []) ++ rest.filter (part j) := by
      apply List.flatMap_congr
      intro j _
      rw [List.filter_cons, here]
      by_cases same : j = k <;> simp [same]
    rw [split]
    refine .trans ?_ (List.flatMap_append_perm _ _ _)
    rw [flatMap_single, if_pos inside]
    exact (ih fun other member => one other (List.mem_cons_of_mem _ member)).cons item

end RingOrder
