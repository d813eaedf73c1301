import Mathlib.Data.List.Induction

/-! Going through a list with the better of two items in hand, and where such a run ends. -/

namespace Selection
variable {α : Type} (better : α → α → Bool)

def pick (best item : α) : α := if better item best then item else best

theorem pick_mem (best item : α) : pick better best item = best ∨ pick better best item = item := by
  rw [pick]
  split
  · exact .inr rfl
  · exact .inl rfl

variable {better}

theorem foldl_pick_mem (first : α) (rest : List α) : rest.foldl (pick better) first ∈ first :: rest := by
  induction rest using List.reverseRecOn with
  | nil => exact List.mem_cons_self
  | append_singleton rest item ih =>
    rw [List.foldl_append, List.foldl_cons, List.foldl_nil, ← List.cons_append]
    rcases pick_mem better (rest.foldl (pick better) first) item with same | same
    · rw [same]
      exact List.mem_append_left _ ih
    · rw [same]
      exact List.mem_append_right _ List.mem_cons_self

/-- The item leads those on both sides of its place: it is better than the ones in front
of it, and none behind it is better. -/
def Leads (key : α → Nat) (better : α → α → Bool) (items : List α) (item : α) : Prop :=
  ∀ other ∈ items,
    (key other < key item → better item other = true) ∧ (key item < key other → better other item = false)

section Keyed
variable {key : α → Nat}

/-- A run ends with an item that leads, whatever the comparison. -/
theorem Leads.foldl_pick {first item : α} {rest : List α} (leads : Leads key better (first :: rest) item)
    (sorted : (first :: rest).Pairwise fun a b => key a < key b) (member : item ∈ first :: rest) :
    rest.foldl (pick better) first = item := by
  induction rest generalizing first with
  | nil => exact (List.mem_singleton.mp member).symm
  | cons second rest ih =>
    obtain ⟨ahead, later⟩ := List.pairwise_cons.mp sorted
    have kept : ∀ other ∈ pick better first second :: rest, other ∈ first :: second :: rest := by
      intro other inside
      rcases List.mem_cons.mp inside with rfl | behind
      · rcases pick_mem better first second with same | same <;> simp [same]
      · simp [behind]
    have held : item ∈ pick better first second :: rest := by
      rcases List.mem_cons.mp member with rfl | behind
      · have stays := (leads second (by simp)).2 (ahead second List.mem_cons_self)
        simp [pick, stays]
      · rcases List.mem_cons.mp behind with rfl | behind
        · have taken := (leads first List.mem_cons_self).1 (ahead item List.mem_cons_self)
          simp [pick, taken]
        · exact List.mem_cons_of_mem _ behind
    rw [List.foldl_cons]
    refine ih (fun other inside => leads other (kept other inside)) (List.pairwise_cons.mpr ⟨?_, later.of_cons⟩) held
    intro other behind
    rcases pick_mem better first second with same | same
    · rw [same]
      exact ahead other (List.mem_cons_of_mem _ behind)
    · rw [same]
      exact (List.pairwise_cons.mp later).1 other behind

/-- Where the comparison is that of a rank, a run ends with an item of the highest one. -/
theorem foldl_pick_rank (rank : α → Int) {first : α} {rest : List α}
    (ranked : ∀ a ∈ first :: rest, ∀ b ∈ first :: rest, better a b = true ↔ rank b < rank a) :
    ∀ item ∈ first :: rest, rank item ≤ rank (rest.foldl (pick better) first) := by
  induction rest using List.reverseRecOn with
  | nil => simp
  | append_singleton rest last ih =>
    rw [← List.cons_append] at ranked ⊢
    have part {a : α} (member : a ∈ first :: rest) : a ∈ first :: rest ++ [last] := List.mem_append_left _ member
    have most := ih fun a left b right => ranked a (part left) b (part right)
    obtain ⟨best, isBest⟩ : ∃ best, rest.foldl (pick better) first = best := ⟨_, rfl⟩
    have inside : best ∈ first :: rest := isBest ▸ foldl_pick_mem first rest
    have higher := ranked last (List.mem_append_right _ List.mem_cons_self) best (part inside)
    rw [isBest] at most
    rw [List.foldl_append, isBest, List.foldl_cons, List.foldl_nil, pick]
    refine List.forall_mem_append.mpr ⟨fun item member => ?_, List.forall_mem_singleton.mpr ?_⟩
    · split
      next newer => exact Int.le_trans (most item member) (Int.le_of_lt (higher.mp newer))
      next => exact most item member
    · split
      next => exact Int.le_refl _
      next older => exact Int.not_lt.mp (mt higher.mpr older)

/-- There the item it ends with leads. -/
theorem leads_foldl_pick (rank : α → Int) {first : α} {rest : List α}
    (ranked : ∀ a ∈ first :: rest, ∀ b ∈ first :: rest, better a b = true ↔ rank b < rank a)
    (sorted : (first :: rest).Pairwise fun a b => key a < key b) :
    Leads key better (first :: rest) (rest.foldl (pick better) first) := by
  induction rest using List.reverseRecOn with
  | nil => simp [Leads]
  | append_singleton rest last ih =>
    rw [← List.cons_append] at ranked sorted ⊢
    obtain ⟨before, _, behind⟩ := List.pairwise_append.mp sorted
    have part {a : α} (member : a ∈ first :: rest) : a ∈ first :: rest ++ [last] := List.mem_append_left _ member
    have most := foldl_pick_rank rank fun a left b right => ranked a (part left) b (part right)
    have leads := ih (fun a left b right => ranked a (part left) b (part right)) before
    obtain ⟨best, isBest⟩ : ∃ best, rest.foldl (pick better) first = best := ⟨_, rfl⟩
    have inside : best ∈ first :: rest := isBest ▸ foldl_pick_mem first rest
    have isLast : last ∈ first :: rest ++ [last] := List.mem_append_right _ List.mem_cons_self
    rw [isBest] at most leads
    rw [List.foldl_append, isBest, List.foldl_cons, List.foldl_nil, pick]
    split
    next newer =>
      have higher := (ranked last isLast best (part inside)).mp newer
      refine List.forall_mem_append.mpr ⟨fun other member => ⟨fun _ => ?_, fun after => ?_⟩, by simp⟩
      · exact (ranked last isLast other (part member)).mpr (Int.lt_of_le_of_lt (most other member) higher)
      · exact absurd after (Nat.lt_asymm (behind other member last List.mem_cons_self))
    next older =>
      refine List.forall_mem_append.mpr ⟨leads, List.forall_mem_singleton.mpr ⟨fun after => ?_, fun _ => ?_⟩⟩
      · exact absurd after (Nat.lt_asymm (behind best inside last List.mem_cons_self))
      · exact Bool.eq_false_iff.mpr older

end Keyed

end Selection
