import PicoWLogger.FlashCalls
import PicoWLogger.Proofs.AppendOutcome
import PicoWLogger.Proofs.RebuildIndex

/-! What an erase of the log area can do when locks time out and status polls fail. -/

namespace PicoWLogger
open FlashLogStorage

namespace FlashLogStorage
open FlashDriver

/-- How many of the next `left` sectors are emptied: the loop stops at the first lock or poll
that fails, behind the sector whose own end was not seen. -/
def sectorsErased (sharedIo polls : Nat → Bool) : Nat → Nat
  | 0 => 0
  | left + 1 =>
    if sharedIo 0 && polls 0 then
      if polls 1 then 1 + sectorsErased (fun n => sharedIo (n + 1)) (fun n => polls (n + 2)) left else 1
    else 0

/-- Every lock and every status poll that an erase of this many sectors needs is answered in time. -/
def Answered (sharedIo polls : Nat → Bool) (sectors : Nat) : Prop :=
  ∀ k < sectors, sharedIo k = true ∧ polls (2 * k) = true ∧ polls (2 * k + 1) = true

theorem Answered.succ_iff {sharedIo polls : Nat → Bool} {left : Nat} :
    Answered sharedIo polls (left + 1) ↔
      sharedIo 0 = true ∧ polls 0 = true ∧ polls 1 = true ∧
        Answered (fun n => sharedIo (n + 1)) (fun n => polls (n + 2)) left := by
  constructor
  · intro all
    obtain ⟨lock, enabled, ready⟩ := all 0 (Nat.succ_pos left)
    exact ⟨lock, enabled, ready, fun k inside => all (k + 1) (Nat.succ_lt_succ inside)⟩
  · rintro ⟨lock, enabled, ready, rest⟩ k inside
    cases k with
    | zero => exact ⟨lock, enabled, ready⟩
    | succ k => exact rest k (Nat.lt_of_succ_lt_succ inside)

theorem sectorsErased_le (sharedIo polls : Nat → Bool) (left : Nat) : sectorsErased sharedIo polls left ≤ left := by
  induction left generalizing sharedIo polls with
  | zero => exact Nat.le_refl 0
  | succ left ih =>
    have rest := ih (fun n => sharedIo (n + 1)) (fun n => polls (n + 2))
    rw [sectorsErased]
    split
    · split <;> omega
    · omega

theorem sectorsErased_answered {sharedIo polls : Nat → Bool} {left : Nat} (answered : Answered sharedIo polls left) :
    sectorsErased sharedIo polls left = left := by
  induction left generalizing sharedIo polls with
  | zero => rfl
  | succ left ih =>
    obtain ⟨lock, enabled, ready, rest⟩ := Answered.succ_iff.mp answered
    rw [sectorsErased, lock, enabled, ready, ih rest]
    simp only [Bool.and_self, ↓reduceIte]
    omega

/-- The first `n` sectors from `addr` on are blank, the other cells are as before. -/
def Blanked (before after : FlashDriver) (addr n : Nat) : Prop :=
  ∀ a, after.cells a = if addr ≤ a ∧ a < addr + 4096 * n then 0xFF else before.cells a

/-- What answers always goes on answering behind the locks and polls that were used. -/
theorem Responsive.consumed {s t : FlashLogStorage} (responsive : s.Responsive) (locks polls : Nat)
    (sameLocks : t.sharedIo = fun n => s.sharedIo (n + locks))
    (samePolls : t.flash.polls = fun n => s.flash.polls (n + polls)) : t.Responsive := by
  refine ⟨?_, ?_⟩
  · rw [FlashDriver.Responsive, samePolls, responsive.flash]
  · rw [sameLocks, responsive.sharedIo]

/-- The sector loop empties sectors from `addr` on, and succeeds if everything answers. -/
theorem eraseSectors_outcome {s : FlashLogStorage} (config : isConfigValid s.config = true) (left : Nat) {addr : Nat}
    (place : addr + 4096 * left = s.config.endAddr) (aligned : addr % 4096 = 0) :
    ((s.eraseSectors s.config.endAddr addr).1 = true ↔ Answered s.sharedIo s.flash.polls left) ∧
      ∃ (flash : FlashDriver) (sharedIo : Nat → Bool),
        (s.eraseSectors s.config.endAddr addr).2 = { s with flash, sharedIo } ∧
          (s.Responsive → FlashLogStorage.Responsive { s with flash, sharedIo }) ∧
          (s.flash.power = none → flash.power = none ∧
            Blanked s.flash flash addr (sectorsErased s.sharedIo s.flash.polls left)) := by
  have flashSize : FLASH_SIZE = 4194304 := rfl
  have area := (Config.shape config).2.2.2
  induction left generalizing s addr with
  | zero =>
    rw [eraseSectors, if_neg (by omega)]
    refine ⟨iff_of_true rfl (fun k inside => absurd inside (Nat.not_lt_zero k)), s.flash, s.sharedIo, rfl, id, ?_⟩
    refine fun steady => ⟨steady, fun a => ?_⟩
    rw [sectorsErased, if_neg (by omega)]
  | succ left ih =>
    obtain ⟨requests, erase⟩ := sectorErase_eq s.flash aligned (by omega : addr < FLASH_SIZE)
    rw [eraseSectors, if_pos (by omega), lockSharedIo_eq, Answered.succ_iff, sectorsErased]
    cases granted : s.sharedIo 0 with
    | false =>
      refine ⟨by simp, s.flash, fun n => s.sharedIo (n + 1), rfl, fun responsive => responsive.consumed 1 0 rfl rfl,
        fun steady => ⟨steady, fun a => ?_⟩⟩
      simp
    | true =>
      simp only [erase]
      cases enabled : s.flash.polls 0 with
      | false =>
        refine ⟨by simp, s.flash.answering (fun n => s.flash.polls (n + 1)) requests, fun n => s.sharedIo (n + 1), rfl,
          fun responsive => responsive.consumed 1 1 rfl rfl, fun steady => ⟨steady, fun a => ?_⟩⟩
        simp
      | true =>
        obtain ⟨next, isNext⟩ : ∃ next, next =
            (s.flash.eraseCells addr).answering (fun n => s.flash.polls (n + 2)) requests := ⟨_, rfl⟩
        have cells (steady : s.flash.power = none) (a : Nat) :
            next.cells a = if addr ≤ a ∧ a < addr + 4096 then 0xFF else s.flash.cells a := by
          simp [isNext, FlashDriver.eraseCells, steady]
        have power (steady : s.flash.power = none) : next.power = none := by simp [isNext, FlashDriver.eraseCells, steady]
        have polls : next.polls = fun n => s.flash.polls (n + 2) := by rw [isNext, answering_polls]
        simp only [Bool.and_self, ↓reduceIte, ← isNext]
        cases ready : s.flash.polls 1 with
        | false =>
          refine ⟨by simp, next, fun n => s.sharedIo (n + 1), rfl, fun responsive => responsive.consumed 1 2 rfl polls,
            fun steady => ⟨power steady, fun a => ?_⟩⟩
          simpa using cells steady a
        | true =>
          obtain ⟨answered, flash, sharedIo, rest, responds, supplied⟩ := ih
            (s := { s with flash := next, sharedIo := fun n => s.sharedIo (n + 1) }) config
            (by change addr + 4096 + _ = s.config.endAddr; omega) (by omega) area
          simp only [polls] at answered supplied
          refine ⟨by simpa using answered, flash, sharedIo, rest,
            fun responsive => responds (responsive.consumed 1 2 rfl polls), fun steady => ?_⟩
          obtain ⟨powered, blank⟩ := supplied (power steady)
          refine ⟨powered, fun a => ?_⟩
          rw [blank a, cells steady a]
          simp only [↓reduceIte]
          split
          · rw [if_pos (by omega)]
          · split
            · rw [if_pos (by omega)]
            · rw [if_neg (by omega)]

/-- How an erase of the log area ends. The flag is cleared on success only. -/
inductive EraseOutcome (s : FlashLogStorage) (flash : FlashDriver) (sharedIo : Nat → Bool)
    (result : Bool × FlashLogStorage) : Prop where
  | erased (answered : Answered s.sharedIo s.flash.polls s.config.sectors)
      (same : result = (true, { s.withIndex (startIndex s.config) with flash, sharedIo, maintenanceBusy := false }))
  | stopped (failed : ¬ Answered s.sharedIo s.flash.polls s.config.sectors)
      (same : result = (false, { s with flash, sharedIo, maintenanceBusy := true }))

theorem eraseLogArea_outcome {s : FlashLogStorage} (config : isConfigValid s.config = true)
    (initialized : s.initialized = true) (locked : s.mutexCreated = true) :
    ∃ flash sharedIo, EraseOutcome s flash sharedIo s.eraseLogArea ∧
      (s.Responsive → FlashLogStorage.Responsive { s with flash, sharedIo }) ∧
      (s.flash.power = none → flash.power = none ∧
        Blanked s.flash flash s.config.startAddr (sectorsErased s.sharedIo s.flash.polls s.config.sectors)) := by
  obtain ⟨aligned, area, _, _⟩ := Config.shape config
  obtain ⟨answered, flash, sharedIo, rest, responds, supplied⟩ := eraseSectors_outcome (s := { s with maintenanceBusy := true }) config
    s.config.sectors area.symm aligned
  obtain ⟨erased, isErased⟩ : ∃ erased, eraseSectors { s with maintenanceBusy := true } s.config.endAddr s.config.startAddr =
      erased := ⟨_, rfl⟩
  rw [isErased] at answered rest
  have answers (responsive : s.Responsive) : FlashLogStorage.Responsive { s with flash, sharedIo } := by
    have running := responds ⟨responsive.flash, responsive.sharedIo⟩
    exact ⟨running.flash, running.sharedIo⟩
  refine ⟨flash, sharedIo, ?_, answers, supplied⟩
  obtain ⟨done, t⟩ := erased
  have reached : t = { s with flash, sharedIo, maintenanceBusy := true } := rest
  rw [eraseLogArea, if_neg (by simp [initialized]), if_neg (by simp [lock, locked]), isErased, reached]
  cases done with
  | false => exact .stopped (fun all => Bool.noConfusion (answered.mpr all)) rfl
  | true => exact .erased (answered.mp rfl) rfl

end FlashLogStorage

end PicoWLogger
