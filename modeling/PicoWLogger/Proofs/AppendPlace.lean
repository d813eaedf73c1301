import PicoWLogger.FlashCalls
import PicoWLogger.Proofs.AppendOutcome
import PicoWLogger.Proofs.EraseOutcome
import PicoWLogger.Proofs.FoundFrames
import PicoWLogger.Proofs.RingIndex

/-! Appends of any bytes in any state that calls can reach. An append touches one sector of the
area, above the write address unless it empties the sector first, and programs page after page. -/

namespace PicoWLogger
open FlashLogStorage FlashDriver

/-- Page programs that together write `data` from `addr` on, one behind the other and each inside one page. -/
inductive PagePartition : Nat → List UInt8 → List FlashRequest → Prop where
  | nil (addr : Nat) : PagePartition addr [] []
  | cons {addr : Nat} {chunk rest : List UInt8} {requests : List FlashRequest} (nonempty : chunk ≠ [])
      (page : addr % PAGE_SIZE + chunk.length ≤ PAGE_SIZE) (later : PagePartition (addr + chunk.length) rest requests) :
      PagePartition addr (chunk ++ rest) (.pageProgram addr chunk :: requests)

theorem exists_partition (addr : Nat) (data : List UInt8) : ∃ requests, PagePartition addr data requests := by
  induction size : data.length using Nat.strongRecOn generalizing addr data with
  | ind size ih =>
    by_cases some' : data = []
    · exact ⟨[], some' ▸ .nil addr⟩
    · obtain ⟨chunk, rest, rfl, nonempty, page, _⟩ := first_chunk addr some'
      have positive := List.length_pos_iff.mpr nonempty
      rw [List.length_append] at size
      obtain ⟨requests, later⟩ := ih rest.length (by omega) (addr + chunk.length) rest rfl
      exact ⟨_, .cons nonempty page later⟩

namespace FlashDriver

theorem pageProgram_requests (flash : FlashDriver) (addr : Nat) (data : List UInt8) :
    (flash.pageProgram addr data).2.requests = (flash.receive (.pageProgram addr data)).requests := by
  rw [pageProgram]
  split
  · rfl
  · cases enabled : (flash.receive (.pageProgram addr data)).polls 0 with
    | false => simp only [writeEnable, poll, enabled]
    | true =>
      simp only [writeEnable, poll, enabled]
      rfl

theorem sectorErase_requests (flash : FlashDriver) (addr : Nat) :
    (flash.sectorErase addr).2.requests = (flash.receive (.sectorErase addr)).requests := by
  rw [sectorErase]
  split
  · rfl
  · cases enabled : (flash.receive (.sectorErase addr)).polls 0 with
    | false => simp only [writeEnable, poll, enabled]
    | true =>
      simp only [writeEnable, poll, enabled]
      rfl

theorem receive_power (flash : FlashDriver) (request : FlashRequest) : (flash.receive request).power = flash.power := by
  rw [receive_eq]

theorem pageProgram_unpowered {flash : FlashDriver} (unpowered : flash.power = some 0) (addr : Nat) (data : List UInt8) :
    (flash.pageProgram addr data).2.power = some 0 := by
  have power := (receive_power flash (.pageProgram addr data)).trans unpowered
  rw [pageProgram]
  split
  · exact power
  · cases enabled : (flash.receive (.pageProgram addr data)).polls 0 <;>
      simp [writeEnable, poll, enabled, waitWhileBusy, programCells, power]

theorem receive_requests (flash : FlashDriver) (request : FlashRequest) :
    (flash.receive request).requests = flash.requests ++ (if flash.power = some 0 then [] else [request]) := by
  rw [receive]
  split
  · rw [List.append_nil]
  · rfl

end FlashDriver

namespace FlashLogStorage
variable {s : FlashLogStorage}

theorem rebuild_flash (s : FlashLogStorage) : s.rebuildIndexFromFlash.flash = s.flash := by
  rw [rebuildIndexFromFlash_keeps]
  rfl

/-- The requests of the page loop are the first of those that write all of `data`. -/
theorem programPages_requests (flashEnd : s.config.endAddr ≤ FLASH_SIZE) (old addr : Nat) (data : List UInt8)
    (inside : addr + data.length ≤ s.config.endAddr) :
    ∃ partition issued, PagePartition addr data partition ∧ issued <+: partition ∧
      (s.programPages old addr data).2.flash.requests = s.flash.requests ++ issued ∧
      (s.flash.power = some 0 → issued = []) := by
  induction size : data.length using Nat.strongRecOn generalizing s addr data with
  | ind size ih =>
    by_cases some' : data = []
    · subst some'
      refine ⟨[], [], .nil addr, List.nil_prefix, ?_, fun _ => rfl⟩
      rw [programPages, if_neg (by simp), List.append_nil]
    · obtain ⟨chunk, rest, rfl, nonempty, page, turn⟩ := programPages_turn flashEnd old inside some'
      have positive := List.length_pos_iff.mpr nonempty
      rw [List.length_append] at size inside
      rw [turn]
      obtain ⟨partition, later⟩ := exists_partition (addr + chunk.length) rest
      have received := pageProgram_requests s.flash addr chunk
      rw [receive_requests] at received
      split
      · split
        · obtain ⟨partition', issued, later', isPrefix, requests, unpowered⟩ := ih rest.length (by omega)
            (s := { s with flash := (s.flash.pageProgram addr chunk).2, sharedIo := fun n => s.sharedIo (n + 1) })
            flashEnd (addr + chunk.length) rest (by change _ ≤ s.config.endAddr; omega) rfl
          rw [requests]
          by_cases power : s.flash.power = some 0
          · rw [if_pos power] at received
            refine ⟨_, [], .cons nonempty page later, List.nil_prefix, ?_, fun _ => rfl⟩
            rw [unpowered (pageProgram_unpowered power addr chunk), List.append_nil]
            exact received
          · rw [if_neg power] at received
            refine ⟨_, .pageProgram addr chunk :: issued, .cons nonempty page later', ?_, ?_, fun off => absurd off power⟩
            · exact (List.prefix_cons_inj _).mpr isPrefix
            · change (s.flash.pageProgram addr chunk).2.requests ++ issued = _
              rw [received, List.append_assoc]
              rfl
        · rw [rebuild_flash]
          refine ⟨_, _, .cons nonempty page later, ?_, received, fun off => if_pos off⟩
          split
          · exact List.nil_prefix
          · exact (List.prefix_cons_inj _).mpr List.nil_prefix
      · refine ⟨_, [], .cons nonempty page later, List.nil_prefix, ?_, fun _ => rfl⟩
        rw [rebuild_flash, List.append_nil]

theorem beginSector_requests (s : FlashLogStorage) (addr : Nat) :
    ∃ erase, (erase = [] ∨ isSectorStart addr = true ∧ erase = [.sectorErase addr]) ∧
      (s.beginSector addr).2.flash.requests = s.flash.requests ++ erase := by
  have invalidated : (s.invalidateFramesInErasedSector addr).flash = s.flash := by
    rw [invalidate_keeps]
    rfl
  have received := sectorErase_requests s.flash addr
  rw [receive_requests] at received
  rw [beginSector]
  split
  · exact ⟨[], .inl rfl, (List.append_nil _).symm⟩
  next atStart =>
    rw [lockSharedIo_eq]
    split
    next taken =>
      obtain ⟨_, rfl⟩ := Prod.mk.inj taken
      refine ⟨[], .inl rfl, ?_⟩
      rw [rebuild_flash, List.append_nil]
      exact congrArg requests invalidated
    next taken =>
      obtain ⟨_, rfl⟩ := Prod.mk.inj taken
      simp only [invalidated]
      refine ⟨if s.flash.power = some 0 then [] else [.sectorErase addr], ?_, ?_⟩
      · split
        · exact .inl rfl
        · exact .inr ⟨by simpa using atStart, rfl⟩
      · rw [← received]
        split
        next failed => rw [rebuild_flash, failed]
        next done => rw [done]

/-- The requests of an append: at most one erase of the sector it goes to, and then page programs. -/
theorem append_requests (config : isConfigValid s.config = true) {data : List UInt8}
    (inside : s.appendAddress data.length + data.length ≤ s.config.endAddr) :
    ∃ erase partition issued, (erase = [] ∨ isSectorStart (s.appendAddress data.length) = true ∧
        erase = [.sectorErase (s.appendAddress data.length)]) ∧
      PagePartition (s.appendAddress data.length) data partition ∧ issued <+: partition ∧
      (s.append data).2.flash.requests = s.flash.requests ++ erase ++ issued := by
  obtain ⟨addr, isAddr⟩ : ∃ addr, s.appendAddress data.length = addr := ⟨_, rfl⟩
  rw [isAddr] at inside ⊢
  obtain ⟨partition, cuts⟩ := exists_partition addr data
  obtain ⟨erase, atMost, began⟩ := beginSector_requests s addr
  have sameConfig := (Retains.beginSector s addr).config
  have nothing : ∃ erase partition issued, (erase = [] ∨ isSectorStart addr = true ∧ erase = [FlashRequest.sectorErase addr]) ∧
      PagePartition addr data partition ∧ issued <+: partition ∧ s.flash.requests = s.flash.requests ++ erase ++ issued :=
    ⟨[], partition, [], .inl rfl, cuts, List.nil_prefix, by simp⟩
  rw [append]
  split
  · exact nothing
  split
  · exact nothing
  split
  · exact nothing
  dsimp only
  split
  · exact nothing
  rw [isAddr]
  split
  next t failed =>
    rw [failed] at began
    exact ⟨erase, partition, [], atMost, cuts, List.nil_prefix, by rw [List.append_nil]; exact began⟩
  next t begun =>
    rw [begun] at began sameConfig
    have flashEnd : t.config.endAddr ≤ FLASH_SIZE := by
      rw [sameConfig]
      exact ((isConfigValid_iff _).mp config).2.2.1
    obtain ⟨partition, issued, cuts, isPrefix, requests, _⟩ :=
      programPages_requests flashEnd s.writeAddr addr data (by rw [sameConfig]; exact inside)
    have whole : (t.programPages s.writeAddr addr data).2.flash.requests = s.flash.requests ++ erase ++ issued :=
      requests.trans (congrArg (· ++ issued) began)
    refine ⟨erase, partition, issued, atMost, cuts, isPrefix, ?_⟩
    split
    next u failed =>
      rw [failed] at whole
      exact whole
    next last u done =>
      rw [done] at whole
      split
      · rw [rebuild_flash]
        exact whole
      · rw [updateIndex_keeps]
        exact whole

theorem programCells_outside {flash : FlashDriver} {addr a : Nat} {data : List UInt8}
    (outside : a < addr ∨ addr + data.length ≤ a) : (flash.programCells addr data).cells a = flash.cells a := by
  simp only [programCells]
  split
  · have short := flash.length_reaching_le data
    rw [List.getD_eq_default _ _ (by omega), and_erased]
  · rfl

theorem eraseCells_outside {flash : FlashDriver} {addr a : Nat} (outside : a < addr ∨ addr + SECTOR_SIZE ≤ a) :
    (flash.eraseCells addr).cells a = flash.cells a := by
  simp only [eraseCells]
  rw [if_neg (by omega)]

theorem AppendOutcome.cells {addr : Nat} {data : List UInt8} {result : Bool × FlashLogStorage}
    (outcome : AppendOutcome s addr data result) :
    result.2.flash.cells = s.flash.cells ∨
      ∃ part, part <+: data ∧ result.2.flash.cells = ((s.begun addr).flash.programCells addr part).cells := by
  cases outcome with
  | failed index chip cells polls requests sharedIo same =>
    rw [same, rebuild_flash]
    rcases cells with rfl | ⟨part, isPrefix, rfl⟩
    · exact .inl rfl
    · exact .inr ⟨part, isPrefix, rfl⟩
  | stored polls requests sharedIo header size valid same =>
    rw [same, updateIndex_keeps]
    exact .inr ⟨data, List.prefix_refl _, rfl⟩

theorem AppendOutcome.write {addr : Nat} {data : List UInt8} {result : Bool × FlashLogStorage}
    (outcome : AppendOutcome s addr data result) (config : isConfigValid s.config = true) (above : s.config.startAddr ≤ addr) :
    s.config.startAddr ≤ result.2.writeAddr ∧ result.2.writeAddr < s.config.endAddr := by
  cases outcome with
  | failed index chip cells polls requests sharedIo same =>
    obtain ⟨u, isU⟩ : ∃ u, s.broken index chip polls requests sharedIo = u := ⟨_, rfl⟩
    have sameConfig : u.config = s.config := by
      rw [← isU]
      rfl
    rw [same, isU, ← sameConfig, ← (Retains.rebuild u).config]
    have located := rebuild_located (s := u) (by rwa [sameConfig])
    exact ⟨located.above, located.below⟩
  | stored polls requests sharedIo header size valid same =>
    have write : result.2.writeAddr = s.wrapAddress (addr + data.length) := by
      rw [same, updateIndexAfterAppend]
      split <;> rfl
    rw [write]
    exact wrapAddress_inside config (by omega)

/-- What a call that appends `data` does outside the index: it stays in the sector at `base`. -/
structure Placed (s t : FlashLogStorage) (data : List UInt8) (base : Nat) : Prop where
  sector : base % SECTOR_SIZE = 0 ∧ s.config.startAddr ≤ base ∧ base + SECTOR_SIZE ≤ s.config.endAddr
  changed : ∀ a, t.flash.cells a ≠ s.flash.cells a → base ≤ a ∧ a < base + SECTOR_SIZE
  /-- The sector was emptied and filled from its start, or nothing below the write address is touched. -/
  behind : (∃ part, part <+: data ∧ t.flash.cells = ((s.flash.eraseCells base).programCells base part).cells) ∨
    ∀ a, t.flash.cells a ≠ s.flash.cells a → s.writeAddr ≤ a
  requests : ∃ addr erase partition issued, (erase = [] ∨ erase = [.sectorErase base]) ∧ PagePartition addr data partition ∧
    issued <+: partition ∧ t.flash.requests = s.flash.requests ++ erase ++ issued
  write : s.config.startAddr ≤ t.writeAddr ∧ t.writeAddr < s.config.endAddr

theorem append_refused {data : List UInt8}
    (refused : ¬ (s.initialized = true ∧ 0 < data.length ∧ s.mutexCreated = true ∧ data.length ≤ 4096)) :
    s.append data = (false, s) := by
  rw [append]
  split
  · rfl
  next initialized =>
  split
  · rfl
  next some' =>
  split
  · rfl
  next locked =>
  dsimp only
  rw [if_pos]
  by_contra small
  refine refused ⟨by simpa using initialized, by omega, by simpa [lock] using locked, by simpa using small⟩

/-- The write address lies in an area that the configuration check accepts. -/
structure InPlace (s : FlashLogStorage) : Prop where
  config : isConfigValid s.config = true
  above : s.config.startAddr ≤ s.writeAddr
  below : s.writeAddr < s.config.endAddr

theorem InPlace.append (inPlace : InPlace s) (data : List UInt8) : ∃ base, Placed s (s.append data).2 data base := by
  by_cases ready : s.initialized = true ∧ 0 < data.length ∧ s.mutexCreated = true ∧ data.length ≤ 4096
  · obtain ⟨initialized, positive, locked, small⟩ := ready
    obtain ⟨k, inside, low, room, target⟩ := appendAddress_target inPlace.config inPlace.above inPlace.below small
    obtain ⟨above, below, aligned⟩ := Config.base_inside inPlace.config inside
    obtain ⟨addr, isAddr⟩ : ∃ addr, s.appendAddress data.length = addr := ⟨_, rfl⟩
    rw [isAddr] at low room target
    obtain ⟨erase, partition, issued, atMost, cuts, isPrefix, requests⟩ :=
      append_requests inPlace.config (show s.appendAddress data.length + data.length ≤ s.config.endAddr by omega)
    rw [isAddr] at atMost cuts
    have outcome := append_outcome inPlace.config initialized locked data positive small isAddr (by omega)
    -- at the start of a sector the sector is emptied first, elsewhere the write address is the target
    have start (atStart : isSectorStart addr = true) : addr = s.config.base k := by
      simp only [isSectorStart, SECTOR_SIZE, decide_eq_true_eq] at atStart
      omega
    refine ⟨s.config.base k, ⟨aligned, above, below⟩, ?_, ?_, ?_, outcome.write inPlace.config (by omega)⟩
    · intro a changed
      by_contra outside
      simp only [SECTOR_SIZE] at outside
      rcases outcome.cells with same | ⟨part, isPart, same⟩
      · exact changed (congrFun same a)
      · have short := isPart.length_le
        rw [same, programCells_outside (by omega), begun] at changed
        split at changed
        next atStart =>
          rw [eraseCells_outside (by rw [start atStart]; simp only [SECTOR_SIZE]; omega)] at changed
          exact changed rfl
        · exact changed rfl
    · rcases outcome.cells with same | ⟨part, isPart, same⟩
      · exact .inr fun a changed => absurd (congrFun same a) changed
      · by_cases atStart : isSectorStart addr = true
        · refine .inl ⟨part, isPart, ?_⟩
          rw [same, begun, if_pos atStart, start atStart]
        · refine .inr fun a changed => ?_
          have moved : addr = s.writeAddr := by
            rcases target with isBase | isWrite
            · exact absurd (by simpa [isSectorStart, isBase] using aligned) atStart
            · exact isWrite
          by_contra before
          rw [same, begun, if_neg atStart, programCells_outside (by omega)] at changed
          exact changed rfl
    · refine ⟨addr, erase, partition, issued, ?_, cuts, isPrefix, requests⟩
      rcases atMost with none' | ⟨atStart, one⟩
      · exact .inl none'
      · exact .inr (one.trans (by rw [start atStart]))
  · obtain ⟨_, _, some', _⟩ := Config.shape inPlace.config
    obtain ⟨above, below, aligned⟩ := Config.base_inside inPlace.config (k := 0) (by omega)
    obtain ⟨partition, cuts⟩ := exists_partition s.writeAddr data
    rw [append_refused ready]
    refine ⟨s.config.base 0, ⟨aligned, above, below⟩, fun a changed => absurd rfl changed,
      .inr fun a changed => absurd rfl changed, ⟨s.writeAddr, [], partition, [], .inl rfl, cuts, List.nil_prefix, ?_⟩,
      inPlace.above, inPlace.below⟩
    rw [List.append_nil, List.append_nil]

section Crossing

/-- The page loop with another result of its branch for data that crosses the log end. -/
def programPagesOr (crossed : Option Nat × FlashLogStorage) (s : FlashLogStorage) (oldWriteAddr addr : Nat) (p : List UInt8) :
    Option Nat × FlashLogStorage :=
  if p.length > 0 then
    let pageOffset := addr &&& (PAGE_SIZE - 1)
    let pageRemain := PAGE_SIZE - pageOffset
    let chunk := min p.length pageRemain
    if u32 (addr + chunk) > s.config.endAddr then crossed
    else
      match s.lockSharedIo with
      | (false, s) => (none, s.rebuildIndexFromFlash)
      | (true, s) =>
        match s.flash.pageProgram addr (p.take chunk) with
        | (false, flash) => (none, rebuildIndexFromFlash { s with flash, writeAddr := oldWriteAddr })
        | (true, flash) => programPagesOr crossed { s with flash } oldWriteAddr (u32 (addr + chunk)) (p.drop chunk)
  else (some addr, s)
termination_by p.length
decreasing_by
  have : addr &&& (PAGE_SIZE - 1) ≤ PAGE_SIZE - 1 := Nat.and_le_right
  simp only [List.length_drop, PAGE_SIZE] at this ⊢
  omega

def appendOr (crossed : Option Nat × FlashLogStorage) (s : FlashLogStorage) (data : List UInt8) : Bool × FlashLogStorage :=
  if !s.initialized then (false, s)
  else if data.length = 0 then (false, s)
  else if !s.lock then (false, s)
  else
    let oldWriteAddr := s.writeAddr
    if data.length > SECTOR_SIZE then (false, s)
    else
      let addr := s.appendAddress data.length
      match s.beginSector addr with
      | (false, s) => (false, s)
      | (true, s) =>
        match s.programPagesOr crossed oldWriteAddr addr data with
        | (none, s) => (false, s)
        | (some last, s) =>
          let s := { s with writeAddr := s.wrapAddress last }
          match s.isValidFrameAt addr with
          | none => (false, rebuildIndexFromFlash { s with writeAddr := oldWriteAddr })
          | some (header, _) => (true, s.updateIndexAfterAppend addr header)

theorem programPagesOr_eq (crossed : Option Nat × FlashLogStorage) (flashEnd : s.config.endAddr ≤ FLASH_SIZE) (old addr : Nat)
    (data : List UInt8) (inside : addr + data.length ≤ s.config.endAddr) :
    programPagesOr crossed s old addr data = s.programPages old addr data := by
  have flashSize : FLASH_SIZE = 4194304 := rfl
  induction size : data.length using Nat.strongRecOn generalizing s addr data with
  | ind size ih =>
    by_cases some' : data = []
    · subst some'
      rw [programPages, programPagesOr, if_neg (by simp), if_neg (by simp)]
    · obtain ⟨chunk, rest, rfl, nonempty, page, source⟩ := first_chunk addr some'
      have left := List.length_pos_iff.mpr some'
      have positive := List.length_pos_iff.mpr nonempty
      rw [List.length_append] at size inside
      have wrap : u32 (addr + chunk.length) = addr + chunk.length := by
        rw [u32]
        omega
      have before : ¬ addr + chunk.length > s.config.endAddr := by omega
      rw [programPages, programPagesOr]
      simp only [left, source, wrap, before, lockSharedIo_eq, List.take_left, List.drop_left, ↓reduceIte]
      cases s.sharedIo 0 with
      | false => rfl
      | true =>
        dsimp only
        obtain ⟨answer, flash⟩ := s.flash.pageProgram addr chunk
        cases answer with
        | false => rfl
        | true =>
          exact ih rest.length (by omega) (s := { s with flash, sharedIo := fun n => s.sharedIo (n + 1) }) flashEnd
            (addr + chunk.length) rest (by change _ ≤ s.config.endAddr; omega) rfl

/-- No append comes to the branch, whatever it would do. -/
theorem InPlace.appendOr (inPlace : InPlace s) (crossed : Option Nat × FlashLogStorage) (data : List UInt8) :
    appendOr crossed s data = s.append data := by
  by_cases large : data.length > SECTOR_SIZE
  · simp only [FlashLogStorage.appendOr, FlashLogStorage.append, large, ↓reduceIte]
  · obtain ⟨k, inside, _, room, _⟩ := appendAddress_target inPlace.config inPlace.above inPlace.below (not_lt.mp large)
    have sector := Config.base_inside inPlace.config inside
    obtain ⟨addr, isAddr⟩ : ∃ addr, s.appendAddress data.length = addr := ⟨_, rfl⟩
    rw [isAddr] at room
    obtain ⟨began, isBegan⟩ : ∃ began, s.beginSector addr = began := ⟨_, rfl⟩
    have sameConfig : began.2.config = s.config := by
      rw [← isBegan]
      exact (Retains.beginSector s addr).config
    have same : programPagesOr crossed began.2 s.writeAddr addr data = began.2.programPages s.writeAddr addr data := by
      apply programPagesOr_eq
      · rw [sameConfig]
        exact ((isConfigValid_iff _).mp inPlace.config).2.2.1
      · rw [sameConfig]
        omega
    obtain ⟨answer, t⟩ := began
    simp only [FlashLogStorage.appendOr, FlashLogStorage.append, isAddr, isBegan]
    cases answer with
    | false => rfl
    | true =>
      dsimp only at same ⊢
      rewrite [same]
      rfl

end Crossing

section Calls

theorem eraseLogArea_refused (refused : ¬ (s.initialized = true ∧ s.mutexCreated = true)) : s.eraseLogArea = (false, s) := by
  rw [eraseLogArea]
  split
  · rfl
  next initialized =>
  rw [if_pos]
  by_contra locked
  exact refused ⟨by simpa using initialized, by simpa [lock] using locked⟩

theorem InPlace.rebuilt (config : isConfigValid s.config = true) : InPlace s.rebuildIndexFromFlash := by
  have located := rebuild_located config
  exact ⟨by rwa [(Retains.rebuild s).config], located.above, located.below⟩

theorem InPlace.storageCall (inPlace : InPlace s) (call : StorageCall) : InPlace (s.storageCall call) := by
  have ordered := ((isConfigValid_iff _).mp inPlace.config).1
  cases call with
  | init created =>
    rw [FlashLogStorage.storageCall, init]
    split
    · exact inPlace
    split
    · exact inPlace
    · exact .rebuilt inPlace.config
  | eraseLogArea =>
    rw [FlashLogStorage.storageCall]
    by_cases ready : s.initialized = true ∧ s.mutexCreated = true
    · obtain ⟨flash, sharedIo, outcome, _⟩ := eraseLogArea_outcome inPlace.config ready.1 ready.2
      cases outcome with
      | erased _ same =>
        rw [same]
        exact ⟨inPlace.config, Nat.le_refl _, ordered⟩
      | stopped _ same =>
        rw [same]
        exact ⟨inPlace.config, inPlace.above, inPlace.below⟩
    · rw [eraseLogArea_refused ready]
      exact inPlace
  | append data =>
    obtain ⟨base, placed⟩ := inPlace.append data
    have retains := Retains.append s data
    exact ⟨by rw [FlashLogStorage.storageCall, retains.config]; exact inPlace.config,
      by rw [FlashLogStorage.storageCall, retains.config]; exact placed.write.1,
      by rw [FlashLogStorage.storageCall, retains.config]; exact placed.write.2⟩
  | restoreWriteAddress =>
    rw [FlashLogStorage.storageCall, restoreWriteAddress]
    split
    · exact inPlace
    split
    · exact inPlace
    · exact .rebuilt inPlace.config

theorem InPlace.storageCalls (inPlace : InPlace s) (calls : List StorageCall) : InPlace (s.storageCalls calls) := by
  induction calls generalizing s with
  | nil => exact inPlace
  | cons call rest ih => exact ih (inPlace.storageCall call)

theorem InPlace.init (config : isConfigValid s.config = true) : InPlace (s.init true).2 := by
  rw [init_eq config]
  exact .rebuilt config

end Calls

end FlashLogStorage

/-- In every state that calls reach behind a successful `init`, whatever the flash holds and whatever the locks and the
status polls answer, an append of any bytes stays in its place and never comes to the branch for data that crosses
the log end. -/
theorem append_stays_in_place {config : Config} (valid : isConfigValid config = true) (flash : FlashDriver)
    (sharedIo : Nat → Bool) (calls : List StorageCall) (data : List UInt8) :
    let s := ((FlashLogStorage.new flash config sharedIo).init true).2.storageCalls calls
    (∃ base, Placed s (s.append data).2 data base) ∧ ∀ crossed, appendOr crossed s data = s.append data := by
  intro s
  have inPlace : InPlace s := (InPlace.init (s := FlashLogStorage.new flash config sharedIo) valid).storageCalls calls
  exact ⟨inPlace.append data, fun crossed => inPlace.appendOr crossed data⟩

/-- Bytes that are no frame, behind one. -/
theorem append_stays_in_place_garbage :
    let s := ((blankStorage ⟨0, 8192⟩).init true).2.storageCalls [.append (sampleRecord 0 5 five_fits).frame]
    (∃ base, Placed s (s.append [4, 5]).2 [4, 5] base) ∧ (s.append [4, 5]).2.flash.cellsFrom 23 2 = [4, 5] := by
  intro s
  have placed := (@append_stays_in_place ⟨0, 8192⟩ (by decide) (blankStorage ⟨0, 8192⟩).flash (fun _ => true)
    [.append (sampleRecord 0 5 five_fits).frame] [4, 5]).1
  refine ⟨placed, ?_⟩
  obtain ⟨area, represents, _⟩ := appendAll_oneSector (shortRecords [0]) (by simp [shortRecords])
    (by rw [length_shortRecords]; decide)
  have works := (appendAll_blank (shortRecords [0])).2.1
  obtain ⟨t, isT⟩ : ∃ t, s = t := ⟨_, rfl⟩
  rw [show ((blankStorage ⟨0, 8192⟩).init true).2.appendAll (shortRecords [0]) = t from isT] at area represents works
  rw [isT]
  have valid : isConfigValid t.config = true := by rw [area]; decide
  have length := length_shortRecords [0]
  have current : (oneSector (shortRecords [0])).current = 0 := rfl
  have used : (oneSector (shortRecords [0])).used 0 = 23 := length
  have base : t.config.base 0 = 0 := by rw [area]; rfl
  have write : t.writeAddr = 23 := by
    rw [represents.write, current, used, base]
    rfl
  have place : t.appendAddress [4, 5].length = 23 := by
    rw [appendAddress_fits valid represents.current (by rw [current, base]; omega) (by rw [current, base]; omega)
      (by rw [current, base, write]; decide), write]
  have cells := append_cells works.responsive valid represents.initialized represents.locked [4, 5] (by decide) (by decide)
    place (by rw [area]; decide)
  have begun : t.begun 23 = t := by rw [FlashLogStorage.begun, if_neg (by decide)]
  have frame : (Sector.whole ((oneSector (shortRecords [0])).records 0)).bytes = frameBytes (shortRecords [0]) :=
    Sector.bytes_whole _
  have held := represents.imaged.holds 0 (by rw [area]; decide)
  rw [frame, base] at held
  have room : (frameBytes (shortRecords [0])).length + ([4, 5] : List UInt8).length ≤ 4096 := by rw [length]; decide
  have programmed := held.program room
  have whole : t.flash.reaching [4, 5] = [4, 5] := by simp only [FlashDriver.reaching, works.flash.power]
  rw [whole, length, Nat.zero_add] at programmed
  rw [← List.append_nil (_ ++ _)] at programmed
  have behind := programmed.cellsFrom
  rw [length, Nat.zero_add] at behind
  rw [begun] at cells
  rw [FlashDriver.cellsFrom, cells]
  exact behind

end PicoWLogger
