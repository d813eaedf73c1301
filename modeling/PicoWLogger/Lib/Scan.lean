import Mathlib.Data.List.Basic

/-! Greedy left-to-right scanning of an address range: at each address a probe either
recognises an item of some positive width, which is stepped over whole, or the scan
moves on by one. -/

universe u v

/-- A probe whose items always have a positive width, so that a scan advances. -/
structure Scanner (α : Type u) where
  probe : Nat → Option (α × Nat)
  advances : ∀ {addr item width}, probe addr = some (item, width) → 0 < width

namespace Scanner

structure Hit (α : Type u) where
  addr : Nat
  item : α
  width : Nat

variable {α : Type u} {β : Type v} (S : Scanner α)

/-- The scanning loop from `addr` to `stop`, with `visit` as its body. -/
def fold (stop : Nat) (visit : β → Hit α → β) (addr : Nat) (acc : β) : β :=
  if addr < stop then
    match found : S.probe addr with
    | some (item, width) => fold stop visit (addr + width) (visit acc ⟨addr, item, width⟩)
    | none => fold stop visit (addr + 1) acc
  else acc
termination_by stop - addr
decreasing_by
  · have := S.advances found
    omega
  · omega

/-- The items a scan from `addr` to `stop` recognises, in order. -/
def hits (stop addr : Nat) : List (Hit α) :=
  if addr < stop then
    match found : S.probe addr with
    | some (item, width) => ⟨addr, item, width⟩ :: hits stop (addr + width)
    | none => hits stop (addr + 1)
  else []
termination_by stop - addr
decreasing_by
  · have := S.advances found
    omega
  · omega

variable {S}

theorem fold_hit {stop addr width : Nat} {item : α} {visit : β → Hit α → β} {acc : β} (inside : addr < stop)
    (found : S.probe addr = some (item, width)) :
    S.fold stop visit addr acc = S.fold stop visit (addr + width) (visit acc ⟨addr, item, width⟩) := by
  rw [fold, if_pos inside]
  split
  next seen => rw [found] at seen; cases seen; rfl
  next seen => rw [found] at seen; cases seen

theorem fold_skip {stop addr : Nat} {visit : β → Hit α → β} {acc : β} (inside : addr < stop)
    (missing : S.probe addr = none) : S.fold stop visit addr acc = S.fold stop visit (addr + 1) acc := by
  rw [fold, if_pos inside]
  split
  next seen => rw [missing] at seen; cases seen
  next => rfl

theorem fold_stop {stop addr : Nat} {visit : β → Hit α → β} {acc : β} (outside : stop ≤ addr) :
    S.fold stop visit addr acc = acc := by
  rw [fold, if_neg (by omega)]

theorem hits_hit {stop addr width : Nat} {item : α} (inside : addr < stop)
    (found : S.probe addr = some (item, width)) :
    S.hits stop addr = ⟨addr, item, width⟩ :: S.hits stop (addr + width) := by
  rw [hits, if_pos inside]
  split
  next seen => rw [found] at seen; cases seen; rfl
  next seen => rw [found] at seen; cases seen

theorem hits_skip {stop addr : Nat} (inside : addr < stop) (missing : S.probe addr = none) :
    S.hits stop addr = S.hits stop (addr + 1) := by
  rw [hits, if_pos inside]
  split
  next seen => rw [missing] at seen; cases seen
  next => rfl

theorem hits_stop {stop addr : Nat} (outside : stop ≤ addr) : S.hits stop addr = [] := by
  rw [hits, if_neg (by omega)]

theorem fold_eq_foldl (stop : Nat) (visit : β → Hit α → β) (addr : Nat) (acc : β) :
    S.fold stop visit addr acc = (S.hits stop addr).foldl visit acc := by
  induction gap : stop - addr using Nat.strongRecOn generalizing addr acc with
  | ind gap ih =>
    by_cases inside : addr < stop
    · cases seen : S.probe addr with
      | some found =>
        obtain ⟨item, width⟩ := found
        have forward := S.advances seen
        rw [fold_hit inside seen, hits_hit inside seen, List.foldl_cons]
        exact ih (stop - (addr + width)) (by omega) _ _ rfl
      | none =>
        rw [fold_skip inside seen, hits_skip inside seen]
        exact ih (stop - (addr + 1)) (by omega) _ _ rfl
    · rw [fold_stop (by omega), hits_stop (by omega), List.foldl_nil]

theorem mem_hits {stop addr : Nat} {hit : Hit α} (member : hit ∈ S.hits stop addr) :
    addr ≤ hit.addr ∧ hit.addr < stop ∧ S.probe hit.addr = some (hit.item, hit.width) := by
  induction gap : stop - addr using Nat.strongRecOn generalizing addr with
  | ind gap ih =>
    by_cases inside : addr < stop
    · cases seen : S.probe addr with
      | some found =>
        obtain ⟨item, width⟩ := found
        have forward := S.advances seen
        rw [hits_hit inside seen] at member
        rcases List.mem_cons.mp member with rfl | later
        · exact ⟨Nat.le_refl _, inside, seen⟩
        · obtain ⟨above, rest⟩ := ih (stop - (addr + width)) (by omega) later rfl
          exact ⟨by omega, rest⟩
      | none =>
        rw [hits_skip inside seen] at member
        obtain ⟨above, rest⟩ := ih (stop - (addr + 1)) (by omega) member rfl
        exact ⟨by omega, rest⟩
    · rw [hits_stop (by omega)] at member
      cases member

theorem hits_unique {stop addr : Nat} {hit other : Hit α} (left : hit ∈ S.hits stop addr) (right : other ∈ S.hits stop addr)
    (same : hit.addr = other.addr) : hit = other := by
  have first := (mem_hits left).2.2
  have second := (mem_hits right).2.2
  rw [same, second] at first
  cases hit
  cases other
  cases same
  cases first
  rfl

theorem hits_sorted (stop addr : Nat) : (S.hits stop addr).Pairwise fun a b => a.addr < b.addr := by
  induction gap : stop - addr using Nat.strongRecOn generalizing addr with
  | ind gap ih =>
    by_cases inside : addr < stop
    · cases seen : S.probe addr with
      | some found =>
        obtain ⟨item, width⟩ := found
        have forward := S.advances seen
        rw [hits_hit inside seen]
        refine List.pairwise_cons.mpr ⟨fun hit member => ?_, ih (stop - (addr + width)) (by omega) _ rfl⟩
        have behind := (mem_hits member).1
        dsimp only
        omega
      | none =>
        rw [hits_skip inside seen]
        exact ih (stop - (addr + 1)) (by omega) _ rfl
    · rw [hits_stop (by omega)]
      exact List.Pairwise.nil

theorem hits_nil {stop addr : Nat} (nothing : S.hits stop addr = []) {a : Nat} (above : addr ≤ a) (below : a < stop) :
    S.probe a = none := by
  induction gap : a - addr generalizing addr with
  | zero =>
    have same : a = addr := by omega
    subst same
    cases seen : S.probe a with
    | none => rfl
    | some found =>
      rw [hits_hit below seen] at nothing
      cases nothing
  | succ gap ih =>
    cases seen : S.probe addr with
    | none =>
      rw [hits_skip (by omega) seen] at nothing
      exact ih nothing (by omega) (by omega)
    | some found =>
      rw [hits_hit (by omega) seen] at nothing
      cases nothing

theorem hits_first {stop addr : Nat} {first : Hit α} {rest : List (Hit α)} (scanned : S.hits stop addr = first :: rest) :
    S.hits first.addr addr = [] := by
  induction gap : stop - addr generalizing addr with
  | zero =>
    rw [hits_stop (by omega)] at scanned
    cases scanned
  | succ gap ih =>
    cases seen : S.probe addr with
    | none =>
      rw [hits_skip (by omega) seen] at scanned
      have inside := mem_hits (scanned ▸ List.mem_cons_self)
      rw [hits_skip (by omega) seen]
      exact ih scanned (by omega)
    | some found =>
      rw [hits_hit (by omega) seen] at scanned
      cases scanned
      exact hits_stop (Nat.le_refl _)

theorem hits_prefix {stop addr bound : Nat} (less : bound ≤ stop) : S.hits bound addr <+: S.hits stop addr := by
  induction gap : bound - addr using Nat.strongRecOn generalizing addr with
  | ind gap ih =>
    by_cases inside : addr < bound
    · cases seen : S.probe addr with
      | some found =>
        obtain ⟨item, width⟩ := found
        have forward := S.advances seen
        rw [hits_hit inside seen, hits_hit (by omega) seen]
        exact (List.prefix_cons_inj _).mpr (ih (bound - (addr + width)) (by omega) rfl)
      | none =>
        rw [hits_skip inside seen, hits_skip (by omega) seen]
        exact ih (bound - (addr + 1)) (by omega) rfl
    · rw [hits_stop (by omega)]
      exact List.nil_prefix

/-- A scan may be taken in two parts where no item lies across the border. -/
theorem hits_split {stop addr middle : Nat} (low : addr ≤ middle) (high : middle ≤ stop)
    (apart : ∀ hit ∈ S.hits stop addr, hit.addr + hit.width ≤ middle ∨ middle ≤ hit.addr) :
    S.hits stop addr = S.hits middle addr ++ S.hits stop middle := by
  induction gap : middle - addr using Nat.strongRecOn generalizing addr with
  | ind gap ih =>
    by_cases arrived : addr = middle
    · rw [arrived, hits_stop (Nat.le_refl middle), List.nil_append]
    · cases seen : S.probe addr with
      | some found =>
        obtain ⟨item, width⟩ := found
        have forward := S.advances seen
        rw [hits_hit (by omega) seen] at apart
        have ends : addr + width ≤ middle ∨ middle ≤ addr := apart _ List.mem_cons_self
        rw [hits_hit (by omega) seen, hits_hit (by omega) seen, List.cons_append]
        exact congrArg _ (ih (middle - (addr + width)) (by omega) (by omega)
          (fun hit member => apart hit (List.mem_cons_of_mem _ member)) rfl)
      | none =>
        rw [hits_skip (by omega) seen] at apart
        rw [hits_skip (by omega) seen, hits_skip (by omega) seen]
        exact ih (middle - (addr + 1)) (by omega) (by omega) apart rfl

/-- Two probes that recognise the same items inside a range scan it alike, if neither scan runs over its end. -/
theorem hits_congr {T : Scanner α} {stop addr : Nat} (left : ∀ hit ∈ S.hits stop addr, hit.addr + hit.width ≤ stop)
    (right : ∀ hit ∈ T.hits stop addr, hit.addr + hit.width ≤ stop)
    (alike : ∀ a item width, addr ≤ a → a + width ≤ stop →
      (S.probe a = some (item, width) ↔ T.probe a = some (item, width))) : S.hits stop addr = T.hits stop addr := by
  induction gap : stop - addr using Nat.strongRecOn generalizing addr with
  | ind gap ih =>
    by_cases inside : addr < stop
    · cases seen : S.probe addr with
      | some found =>
        obtain ⟨item, width⟩ := found
        have forward := S.advances seen
        rw [hits_hit inside seen] at left
        have ends : addr + width ≤ stop := left _ List.mem_cons_self
        have other := (alike addr item width (Nat.le_refl _) ends).mp seen
        rw [hits_hit inside other] at right
        rw [hits_hit inside seen, hits_hit inside other]
        exact congrArg _ (ih (stop - (addr + width)) (by omega)
          (fun hit member => left hit (List.mem_cons_of_mem _ member))
          (fun hit member => right hit (List.mem_cons_of_mem _ member))
          (fun a item width above => alike a item width (by omega)) rfl)
      | none =>
        cases other : T.probe addr with
        | some found =>
          obtain ⟨item, width⟩ := found
          rw [hits_hit inside other] at right
          have ends : addr + width ≤ stop := right _ List.mem_cons_self
          rw [(alike addr item width (Nat.le_refl _) ends).mpr other] at seen
          cases seen
        | none =>
          rw [hits_skip inside seen] at left
          rw [hits_skip inside other] at right
          rw [hits_skip inside seen, hits_skip inside other]
          exact ih (stop - (addr + 1)) (by omega) left right (fun a item width above => alike a item width (by omega)) rfl
    · rw [hits_stop (by omega), hits_stop (by omega)]

variable (S)

/-- The scan from the first address arrives at the last one having recognised
exactly the listed items. -/
inductive Walk : Nat → List (Hit α) → Nat → Prop where
  | stop (addr : Nat) : Walk addr [] addr
  | hit {addr item width rest last} (found : S.probe addr = some (item, width))
      (later : Walk (addr + width) rest last) : Walk addr (⟨addr, item, width⟩ :: rest) last
  | skip {addr rest last} (missing : S.probe addr = none) (later : Walk (addr + 1) rest last) :
      Walk addr rest last

variable {S}

theorem Walk.le {first last : Nat} {items : List (Hit α)} (walk : S.Walk first items last) : first ≤ last := by
  induction walk with
  | stop => exact Nat.le_refl _
  | hit _ _ ih => omega
  | skip _ _ ih => omega

theorem Walk.trans {first middle last : Nat} {items others : List (Hit α)} (left : S.Walk first items middle)
    (right : S.Walk middle others last) : S.Walk first (items ++ others) last := by
  induction left with
  | stop => exact right
  | hit found _ ih => exact .hit found (ih right)
  | skip missing _ ih => exact .skip missing (ih right)

/-- A stretch in which nothing is recognised is walked byte by byte. -/
theorem Walk.blank {first last : Nat} (ordered : first ≤ last)
    (missing : ∀ addr, first ≤ addr → addr < last → S.probe addr = none) : S.Walk first [] last := by
  induction gap : last - first generalizing first with
  | zero =>
    have same : first = last := by omega
    exact same ▸ .stop first
  | succ gap ih =>
    refine .skip (missing first (Nat.le_refl _) (by omega)) (ih (by omega) ?_ (by omega))
    intro addr after before
    exact missing addr (by omega) before

theorem Walk.single {addr width : Nat} {item : α} (found : S.probe addr = some (item, width)) :
    S.Walk addr [⟨addr, item, width⟩] (addr + width) := .hit found (.stop _)

theorem Walk.hits_append {first last stop : Nat} {items : List (Hit α)} (walk : S.Walk first items last)
    (bound : last ≤ stop) : S.hits stop first = items ++ S.hits stop last := by
  induction walk with
  | stop => rfl
  | hit found later ih =>
    have forward := S.advances found
    have := later.le
    rw [hits_hit (by omega) found, ih bound, List.cons_append]
  | skip missing later ih =>
    have := later.le
    rw [hits_skip (by omega) missing, ih bound]

/-- A scan arrives at every item it recognises. -/
theorem Walk.to_hit {stop addr : Nat} {hit : Hit α} (member : hit ∈ S.hits stop addr) :
    ∃ items, S.Walk addr items hit.addr := by
  induction gap : stop - addr using Nat.strongRecOn generalizing addr with
  | ind gap ih =>
    by_cases inside : addr < stop
    · cases seen : S.probe addr with
      | some found =>
        obtain ⟨item, width⟩ := found
        have forward := S.advances seen
        rw [hits_hit inside seen] at member
        rcases List.mem_cons.mp member with rfl | later
        · exact ⟨[], .stop _⟩
        · obtain ⟨items, walk⟩ := ih (stop - (addr + width)) (by omega) later rfl
          exact ⟨_, .hit seen walk⟩
      | none =>
        rw [hits_skip inside seen] at member
        obtain ⟨items, walk⟩ := ih (stop - (addr + 1)) (by omega) member rfl
        exact ⟨_, .skip seen walk⟩
    · rw [hits_stop (by omega)] at member
      cases member

/-- What a walk arrives at, the scan recognises. -/
theorem Walk.mem_hits {first last stop width : Nat} {items : List (Hit α)} {item : α} (walk : S.Walk first items last)
    (bound : last < stop) (found : S.probe last = some (item, width)) : ⟨last, item, width⟩ ∈ S.hits stop first := by
  rw [walk.hits_append (by omega), hits_hit bound found]
  exact List.mem_append_right _ List.mem_cons_self

/-- A walk that reaches the end of the range is the whole scan. -/
theorem Walk.hits_eq {first last : Nat} {items : List (Hit α)} (walk : S.Walk first items last) :
    S.hits last first = items := by
  rw [walk.hits_append (Nat.le_refl _), hits_stop (Nat.le_refl _), List.append_nil]

end Scanner
