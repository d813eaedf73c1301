import Mathlib.Data.List.Basic
import Mathlib.Data.List.Induction
import Mathlib.Data.List.Infix

/-! Lines of input with deletions: the text that is left of a line, and an editor with room for a
bounded text that starts afresh when a character finds no room. -/

namespace LineEdit
variable {α : Type*} (deletes : α → Bool)

def edit (text : List α) (ch : α) : List α := if deletes ch then text.dropLast else text ++ [ch]

/-- The text of a line when its deletions are carried out. -/
def edited (line : List α) : List α := line.foldl (edit deletes) []

theorem edited_concat (line : List α) (ch : α) : edited deletes (line ++ [ch]) = edit deletes (edited deletes line) ch := by
  simp only [edited, List.foldl_append, List.foldl_cons, List.foldl_nil]

/-- The text is at some time longer than the limit. -/
def Exceeds (limit : Nat) (line : List α) : Prop := ∃ front, front <+: line ∧ limit < (edited deletes front).length

instance (limit : Nat) (line : List α) : Decidable (Exceeds deletes limit line) :=
  decidable_of_iff (∃ front ∈ line.inits, limit < (edited deletes front).length) (by simp only [List.mem_inits, Exceeds])

/-- What stands behind the last character that found no room; the whole line when each found room. -/
def behindOverflow (limit : Nat) (line : List α) : List α :=
  line.foldl (fun since ch => if deletes ch = true ∨ (edited deletes since).length < limit then since ++ [ch] else []) []

/-- The editor with room for `limit` characters. -/
def editWithin (limit : Nat) (text : List α) (ch : α) : List α :=
  if deletes ch then text.dropLast else if text.length < limit then text ++ [ch] else []

variable {deletes} {limit : Nat}

theorem behindOverflow_concat (line : List α) (ch : α) :
    behindOverflow deletes limit (line ++ [ch]) =
      if deletes ch = true ∨ (edited deletes (behindOverflow deletes limit line)).length < limit then
        behindOverflow deletes limit line ++ [ch]
      else [] := by
  rw [behindOverflow, List.foldl_append]
  rfl

/-- The editor holds the text of what stands behind the last overflow. -/
theorem editWithin_edited (line : List α) :
    line.foldl (editWithin deletes limit) [] = edited deletes (behindOverflow deletes limit line) := by
  induction line using List.reverseRecOn with
  | nil => rfl
  | append_singleton line ch ih =>
    rw [List.foldl_append, List.foldl_cons, List.foldl_nil, ih, behindOverflow_concat, editWithin]
    by_cases deleting : deletes ch = true
    · rw [if_pos deleting, if_pos (.inl deleting), edited_concat, edit, if_pos deleting]
    · by_cases room : (edited deletes (behindOverflow deletes limit line)).length < limit
      · rw [if_neg deleting, if_pos room, if_pos (.inr room), edited_concat, edit, if_neg deleting]
      · rw [if_neg deleting, if_neg room, if_neg (not_or.mpr ⟨deleting, room⟩)]
        rfl

theorem behindOverflow_eq (line : List α) (within : ¬ Exceeds deletes limit line) :
    behindOverflow deletes limit line = line := by
  induction line using List.reverseRecOn with
  | nil => rfl
  | append_singleton line ch ih =>
    have before : ¬ Exceeds deletes limit line := by
      rintro ⟨front, inside, longer⟩
      exact within ⟨front, inside.trans (List.prefix_append line [ch]), longer⟩
    rw [behindOverflow_concat, ih before, if_pos]
    by_cases deleting : deletes ch = true
    · exact .inl deleting
    · have short : ¬ limit < (edited deletes (line ++ [ch])).length := fun longer => within ⟨_, List.prefix_rfl, longer⟩
      rw [edited_concat, edit, if_neg deleting, List.length_append, List.length_singleton] at short
      exact .inr (by omega)

end LineEdit
