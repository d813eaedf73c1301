import PicoWLogger.Proofs.SectorImage

/-! What `append` does when locks and polls answer in time: where the bytes go, what
the cells hold afterwards and which index it starts from. The supply may fail. -/

namespace PicoWLogger

namespace Config
variable {config : Config}

theorem base_succ (config : Config) (k : Nat) : config.base (k + 1) = config.base k + 4096 := by
  simp only [base]
  omega

theorem base_inside (valid : FlashLogStorage.isConfigValid config = true) {k : Nat} (inside : k < config.sectors) :
    config.startAddr ≤ config.base k ∧ config.base k + 4096 ≤ config.endAddr ∧ config.base k % 4096 = 0 := by
  have := shape valid
  simp only [base]
  omega

theorem base_apart (config : Config) {j k : Nat} (different : j ≠ k) :
    config.base j + 4096 ≤ config.base k ∨ config.base k + 4096 ≤ config.base j := by
  simp only [base]
  omega

theorem next_lt (valid : FlashLogStorage.isConfigValid config = true) (k : Nat) : config.next k < config.sectors :=
  Nat.mod_lt _ (shape valid).2.2.1

end Config

namespace FlashLogStorage
open FlashDriver

def withIndex (s : FlashLogStorage) (index : Index) : FlashLogStorage :=
  { s with
    writeAddr := index.writeAddr
    oldestAddr := index.oldestAddr
    newestAddr := index.newestAddr
    newestSeq := index.newestSeq
    validFrameCount := index.validFrameCount }

theorem rebuildIndexFromFlash_keeps (s : FlashLogStorage) :
    s.rebuildIndexFromFlash = s.withIndex s.rebuildIndexFromFlash.index := by
  simp only [rebuildIndexFromFlash, escapeDirty]
  repeat' split
  all_goals rfl

theorem invalidate_keeps (s : FlashLogStorage) (sectorAddr : Nat) :
    s.invalidateFramesInErasedSector sectorAddr =
      s.withIndex (s.invalidateFramesInErasedSector sectorAddr).index := by
  simp only [invalidateFramesInErasedSector]
  repeat' split
  all_goals rfl

theorem updateIndex_keeps (s : FlashLogStorage) (frameAddr : Nat) (header : LogFrameHeader) :
    s.updateIndexAfterAppend frameAddr header = s.withIndex (s.updateIndexAfterAppend frameAddr header).index := by
  rw [updateIndexAfterAppend]
  split <;> rfl

section Addresses
variable {s : FlashLogStorage} (config : isConfigValid s.config = true)
include config

theorem wrapAddress_base {k : Nat} (most : k ≤ s.config.sectors) :
    s.wrapAddress (s.config.base k) = s.config.base (k % s.config.sectors) := by
  have area := Config.shape config
  rw [wrapAddress]
  rcases Nat.lt_or_eq_of_le most with inside | rfl
  · have below := Config.base_inside config inside
    rw [if_neg (by omega), Nat.mod_eq_of_lt inside]
  · rw [if_pos (by simp only [Config.base]; omega), Nat.mod_self]
    simp [Config.base]

theorem wrapAddress_next {k : Nat} (inside : k < s.config.sectors) :
    s.wrapAddress (s.config.base k + 4096) = s.config.base (s.config.next k) := by
  rw [← Config.base_succ, wrapAddress_base config inside, Config.next]

theorem nextSectorAddress_inside {k addr : Nat} (inside : k < s.config.sectors) (above : s.config.base k ≤ addr)
    (below : addr < s.config.base k + 4096) : nextSectorAddress addr = s.config.base k + 4096 := by
  have area := Config.shape config
  have sector := Config.base_inside config inside
  simp only [nextSectorAddress, SECTOR_SIZE, u32]
  split <;> omega

theorem currentSectorEnd_inside {k addr : Nat} (inside : k < s.config.sectors) (above : s.config.base k ≤ addr)
    (below : addr < s.config.base k + 4096) : currentSectorEnd addr = s.config.base k + 4096 := by
  have area := Config.shape config
  have sector := Config.base_inside config inside
  rw [currentSectorEnd, and_sector (by omega)]
  simp only [SECTOR_SIZE, u32]
  omega

theorem appendAddress_fits {k len : Nat} (inside : k < s.config.sectors) (above : s.config.base k ≤ s.writeAddr)
    (below : s.writeAddr < s.config.base k + 4096) (room : s.writeAddr + len ≤ s.config.base k + 4096) :
    s.appendAddress len = s.writeAddr := by
  have area := Config.shape config
  have sector := Config.base_inside config inside
  have stays : s.wrapAddress s.writeAddr = s.writeAddr := by rw [wrapAddress, if_neg (by omega)]
  have sectorEnd := currentSectorEnd_inside config inside above below
  have wrap : u32 (s.writeAddr + len) = s.writeAddr + len := by
    rw [u32]
    omega
  simp only [appendAddress, stays, sectorEnd, wrap]
  rw [if_neg (by omega)]

theorem appendAddress_next {k len : Nat} (inside : k < s.config.sectors) (above : s.config.base k ≤ s.writeAddr)
    (below : s.writeAddr < s.config.base k + 4096) (small : len ≤ 4096)
    (full : s.config.base k + 4096 < s.writeAddr + len) :
    s.appendAddress len = s.config.base (s.config.next k) := by
  have area := Config.shape config
  have sector := Config.base_inside config inside
  have stays : s.wrapAddress s.writeAddr = s.writeAddr := by rw [wrapAddress, if_neg (by omega)]
  have sectorEnd := currentSectorEnd_inside config inside above below
  have wrap : u32 (s.writeAddr + len) = s.writeAddr + len := by
    rw [u32]
    omega
  simp only [appendAddress, stays, sectorEnd, wrap]
  rw [if_pos (by omega), nextSectorAddress_inside config inside above below, wrapAddress_next config inside]

/-- An append goes to the write address or to the start of a sector, and has room there in its sector. -/
theorem appendAddress_target (start : s.config.startAddr ≤ s.writeAddr) (stop : s.writeAddr < s.config.endAddr) {len : Nat}
    (small : len ≤ 4096) :
    ∃ k, k < s.config.sectors ∧ s.config.base k ≤ s.appendAddress len ∧
      s.appendAddress len + len ≤ s.config.base k + 4096 ∧
      (s.appendAddress len = s.config.base k ∨ s.appendAddress len = s.writeAddr) := by
  obtain ⟨aligned, area, some', _⟩ := Config.shape config
  obtain ⟨k, isK⟩ : ∃ k, k = (s.writeAddr - s.config.startAddr) / 4096 := ⟨_, rfl⟩
  have inside : k < s.config.sectors := by omega
  have low : s.config.base k ≤ s.writeAddr := by
    simp only [Config.base]
    omega
  have high : s.writeAddr < s.config.base k + 4096 := by
    simp only [Config.base]
    omega
  by_cases room : s.writeAddr + len ≤ s.config.base k + 4096
  · rw [appendAddress_fits config inside low high room]
    exact ⟨k, inside, low, room, .inr rfl⟩
  · rw [appendAddress_next config inside low high small (by omega)]
    exact ⟨s.config.next k, Config.next_lt config k, Nat.le_refl _, by omega, .inl rfl⟩

end Addresses

/-- The state from which the page loop of an append to `addr` starts. -/
def begun (s : FlashLogStorage) (addr : Nat) : FlashLogStorage :=
  if isSectorStart addr then { s.invalidateFramesInErasedSector addr with flash := s.flash.eraseCells addr } else s

theorem begun_keeps (s : FlashLogStorage) (addr : Nat) :
    s.begun addr = { s.withIndex (s.begun addr).index with flash := (s.begun addr).flash } := by
  rw [begun]
  split
  · rw [invalidate_keeps]
    rfl
  · rfl

theorem begun_power {s : FlashLogStorage} (power : s.flash.power = none) (addr : Nat) :
    (s.begun addr).flash.power = none := by
  rw [begun]
  split
  · simp [FlashDriver.eraseCells, power]
  · exact power

theorem begun_responsive {s : FlashLogStorage} (responsive : s.Responsive) (addr : Nat) : (s.begun addr).Responsive := by
  rw [begun]
  split
  · rw [invalidate_keeps]
    exact ⟨responsive.flash, responsive.sharedIo⟩
  · exact responsive

private theorem beginSector_responsive {s : FlashLogStorage} (responsive : s.Responsive) (addr : Nat)
    (inside : addr < FLASH_SIZE) :
    ∃ requests, s.beginSector addr = (true, { s.begun addr with flash := { (s.begun addr).flash with requests } }) := by
  by_cases aligned : isSectorStart addr = true
  · have invalidated : (s.invalidateFramesInErasedSector addr).Responsive := by
      rw [invalidate_keeps]
      exact ⟨responsive.flash, responsive.sharedIo⟩
    have sameFlash : (s.invalidateFramesInErasedSector addr).flash = s.flash := by
      rw [invalidate_keeps]
      rfl
    have start : addr % 4096 = 0 := by simpa [isSectorStart] using aligned
    obtain ⟨requests, erase⟩ := sectorErase_responsive responsive.flash start inside
    refine ⟨requests, ?_⟩
    simp only [beginSector, begun, aligned, invalidated.lockSharedIo, sameFlash, erase, Bool.not_true,
      Bool.false_eq_true, ↓reduceIte]
  · refine ⟨s.flash.requests, ?_⟩
    simp only [beginSector, begun, aligned, Bool.not_false, ↓reduceIte, Bool.false_eq_true]

/-- The state in which an append of `data` to `addr` checks the frame it wrote. -/
def written (s : FlashLogStorage) (addr : Nat) (data : List UInt8) (requests : List FlashRequest) : FlashLogStorage :=
  { s.begun addr with
    flash := { (s.begun addr).flash.programCells addr data with requests }
    writeAddr := s.wrapAddress (addr + data.length) }

/-- An append reaches its final check, and its answer is that of the check. -/
theorem append_responsive {s : FlashLogStorage} (responsive : s.Responsive) (config : isConfigValid s.config = true)
    (initialized : s.initialized = true) (locked : s.mutexCreated = true) (data : List UInt8)
    (nonempty : 0 < data.length) (fits : data.length ≤ 4096) {addr : Nat} (place : s.appendAddress data.length = addr)
    (inside : addr + data.length ≤ s.config.endAddr) :
    ∃ requests, s.append data =
      match (s.written addr data requests).isValidFrameAt addr with
      | none => (false, rebuildIndexFromFlash { s.written addr data requests with writeAddr := s.writeAddr })
      | some (header, _) => (true, (s.written addr data requests).updateIndexAfterAppend addr header) := by
  have flashEnd := ((isConfigValid_iff _).mp config).2.2.1
  obtain ⟨began, beginning⟩ := beginSector_responsive responsive addr (by omega)
  have sameConfig : (s.begun addr).config = s.config := by
    rw [begun_keeps]
    rfl
  have answers := begun_responsive responsive addr
  have start : ({ s.begun addr with flash := { (s.begun addr).flash with requests := began } } : FlashLogStorage).Responsive :=
    ⟨answers.flash, answers.sharedIo⟩
  obtain ⟨requests, program⟩ := programPages_responsive start (by rw [← sameConfig] at flashEnd; exact flashEnd) s.writeAddr
    addr data (by rw [← sameConfig] at inside; exact inside)
  have some' : data.length ≠ 0 := by omega
  have notLarge : ¬ data.length > SECTOR_SIZE := by
    simp only [SECTOR_SIZE]
    omega
  have wrap (addr : Nat) : (s.begun addr).wrapAddress = s.wrapAddress := by
    rw [begun_keeps]
    rfl
  have target : ({ s.begun addr with
        flash := { (s.begun addr).flash.programCells addr data with requests }
        writeAddr := s.wrapAddress (addr + data.length) } : FlashLogStorage) = s.written addr data requests := rfl
  refine ⟨requests, ?_⟩
  simp only [append, initialized, some', lock, locked, notLarge, place, beginning, program, Bool.not_true,
    Bool.false_eq_true, ↓reduceIte]
  rw [← target, ← wrap addr]
  rfl

theorem written_keeps (s : FlashLogStorage) (addr : Nat) (data : List UInt8) (requests : List FlashRequest) :
    s.written addr data requests =
      { s.withIndex (s.written addr data requests).index with flash := (s.written addr data requests).flash } := by
  rw [written, begun_keeps]
  rfl

theorem append_cells {s : FlashLogStorage} (responsive : s.Responsive) (config : isConfigValid s.config = true)
    (initialized : s.initialized = true) (locked : s.mutexCreated = true) (data : List UInt8)
    (nonempty : 0 < data.length) (fits : data.length ≤ 4096) {addr : Nat} (place : s.appendAddress data.length = addr)
    (inside : addr + data.length ≤ s.config.endAddr) :
    (s.append data).2.flash.cells = ((s.begun addr).flash.programCells addr data).cells := by
  obtain ⟨requests, result⟩ := append_responsive responsive config initialized locked data nonempty fits place inside
  rw [result]
  split
  · rw [rebuildIndexFromFlash_keeps]
    rfl
  · rw [updateIndex_keeps]
    rfl

/-- What no step of an append changes. -/
structure Retains (s t : FlashLogStorage) : Prop where
  config : t.config = s.config
  initialized : t.initialized = s.initialized
  mutexCreated : t.mutexCreated = s.mutexCreated
  maintenanceBusy : t.maintenanceBusy = s.maintenanceBusy

namespace Retains
variable {s t u : FlashLogStorage}

theorem refl (s : FlashLogStorage) : Retains s s := ⟨rfl, rfl, rfl, rfl⟩

theorem trans (first : Retains s t) (second : Retains t u) : Retains s u :=
  ⟨second.config.trans first.config, second.initialized.trans first.initialized,
    second.mutexCreated.trans first.mutexCreated, second.maintenanceBusy.trans first.maintenanceBusy⟩

theorem rebuild (s : FlashLogStorage) : Retains s s.rebuildIndexFromFlash := by
  rw [rebuildIndexFromFlash_keeps]
  exact ⟨rfl, rfl, rfl, rfl⟩

theorem invalidate (s : FlashLogStorage) (sectorAddr : Nat) : Retains s (s.invalidateFramesInErasedSector sectorAddr) := by
  rw [invalidate_keeps]
  exact ⟨rfl, rfl, rfl, rfl⟩

theorem updateIndex (s : FlashLogStorage) (frameAddr : Nat) (header : LogFrameHeader) :
    Retains s (s.updateIndexAfterAppend frameAddr header) := by
  rw [updateIndex_keeps]
  exact ⟨rfl, rfl, rfl, rfl⟩

theorem lockSharedIo {locked : Bool} (taken : s.lockSharedIo = (locked, t)) : Retains s t := by
  cases taken
  exact ⟨rfl, rfl, rfl, rfl⟩

theorem withFlash (s : FlashLogStorage) (flash : FlashDriver) (writeAddr : Nat) : Retains s { s with flash, writeAddr } :=
  ⟨rfl, rfl, rfl, rfl⟩

theorem beginSector (s : FlashLogStorage) (addr : Nat) : Retains s (s.beginSector addr).2 := by
  rw [FlashLogStorage.beginSector]
  split
  · exact refl s
  · split
    · next taken => exact (invalidate s addr).trans ((lockSharedIo taken).trans (rebuild _))
    · next taken =>
      have begun := (invalidate s addr).trans (lockSharedIo taken)
      split
      · exact (begun.trans (withFlash _ _ _)).trans (rebuild _)
      · exact begun.trans (withFlash _ _ _)

theorem programPages (s : FlashLogStorage) (oldWriteAddr addr : Nat) (p : List UInt8) :
    Retains s (s.programPages oldWriteAddr addr p).2 := by
  fun_induction FlashLogStorage.programPages s oldWriteAddr addr p with
  | case1 => exact (withFlash _ _ _).trans (rebuild _)
  | case2 s addr p more offset remain chunk inside t taken => exact (lockSharedIo taken).trans (rebuild _)
  | case3 s addr p more offset remain chunk inside t taken flash failed =>
    exact ((lockSharedIo taken).trans (withFlash _ _ _)).trans (rebuild _)
  | case4 s addr p more offset remain chunk inside t taken flash done ih =>
    exact ((lockSharedIo taken).trans (withFlash _ _ _)).trans ih
  | case5 s => exact refl s

theorem append (s : FlashLogStorage) (data : List UInt8) : Retains s (s.append data).2 := by
  have begin' := beginSector s (s.appendAddress data.length)
  rw [FlashLogStorage.append]
  split
  · exact refl s
  · split
    · exact refl s
    · split
      · exact refl s
      · dsimp only
        split
        · exact refl s
        · split
          · next t begun => rwa [begun] at begin'
          · next t begun =>
            rw [begun] at begin'
            have pages := programPages t s.writeAddr (s.appendAddress data.length) data
            split
            · next u programmed =>
              rw [programmed] at pages
              exact begin'.trans pages
            · next u last programmed =>
              rw [programmed] at pages
              split
              · exact ((begin'.trans pages).trans (withFlash _ _ _)).trans (rebuild _)
              · exact ((begin'.trans pages).trans (withFlash _ _ _)).trans (updateIndex _ _ _)

end Retains

end FlashLogStorage

namespace Holding
variable {flash : FlashDriver} {config : Config} {contents : Nat → List UInt8}

theorem erase (holding : Holding flash config contents) (powered : flash.power ≠ some 0) (k : Nat) :
    Holding (flash.eraseCells (config.base k)) config (Function.update contents k []) := by
  intro j inside
  by_cases same : j = k
  · subst same
    rw [Function.update_self]
    refine ⟨by simp, ?_⟩
    intro offset small
    simp only [FlashDriver.eraseCells, SECTOR_SIZE]
    rw [if_pos ⟨powered, by omega, by omega⟩]
    rfl
  · rw [Function.update_of_ne same]
    apply (holding j inside).congr
    intro a low high
    have apart := config.base_apart same
    simp only [FlashDriver.eraseCells, SECTOR_SIZE]
    rw [if_neg (by omega)]

theorem program (holding : Holding flash config contents) {k : Nat} (inside : k < config.sectors) (data : List UInt8)
    (room : (contents k).length + data.length ≤ 4096) :
    Holding (flash.programCells (config.base k + (contents k).length) data) config
      (Function.update contents k (contents k ++ flash.reaching data)) := by
  intro j other
  by_cases same : j = k
  · subst same
    rw [Function.update_self]
    exact (holding j inside).program room
  · rw [Function.update_of_ne same]
    apply (holding j other).congr
    intro a low high
    have apart := config.base_apart same
    have shorter := FlashDriver.length_reaching_le flash data
    simp only [FlashDriver.programCells]
    split
    · rw [List.getD_eq_default _ _ (by omega), and_erased]
    · rfl

end Holding

end PicoWLogger
