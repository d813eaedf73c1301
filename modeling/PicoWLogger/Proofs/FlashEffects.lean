import PicoWLogger.Proofs.FrameCheck
import Mathlib.Tactic.Linarith

/-! Effects of the flash operations when the driver answers in time. The supply may
still fail, so the same equations describe an append that a power cut interrupts. -/

namespace PicoWLogger

theorem and_sector {addr : Nat} (small : addr < 2 ^ 32) :
    addr &&& complement32 (SECTOR_SIZE - 1) = addr / 4096 * 4096 := by
  have mask : complement32 (SECTOR_SIZE - 1) = (2 ^ 20 - 1) <<< 12 := by decide
  have round : addr / 4096 * 4096 = (addr >>> 12) <<< 12 := by
    rw [Nat.shiftLeft_eq, Nat.shiftRight_eq_div_pow]
  rw [mask, round]
  apply Nat.eq_of_testBit_eq
  intro bit
  simp only [Nat.testBit_and, Nat.testBit_shiftLeft, Nat.testBit_shiftRight, Nat.testBit_two_pow_sub_one]
  by_cases low : bit ≥ 12
  · have same : 12 + (bit - 12) = bit := by omega
    by_cases high : bit < 32
    · simp [low, same, show bit - 12 < 20 by omega]
    · have zero : addr.testBit bit = false :=
        Nat.testBit_lt_two_pow (Nat.lt_of_lt_of_le small (Nat.pow_le_pow_right (by omega) (by omega)))
      simp [same, zero]
  · simp [low]

theorem and_page (addr : Nat) : addr &&& (PAGE_SIZE - 1) = addr % 256 := Nat.and_two_pow_sub_one_eq_mod addr 8

theorem and_erased (cell : UInt8) : cell &&& 0xFF = cell := UInt8.and_neg_one

theorem erased_and (cell : UInt8) : 0xFF &&& cell = cell := by rw [UInt8.and_comm, and_erased]

namespace FlashDriver

def Responsive (flash : FlashDriver) : Prop := flash.polls = fun _ => true

theorem receive_eq (flash : FlashDriver) (request : FlashRequest) :
    flash.receive request = { flash with requests := (flash.receive request).requests } := by
  rw [receive]
  split <;> rfl

def answering (flash : FlashDriver) (polls : Nat → Bool) (requests : List FlashRequest) : FlashDriver :=
  { flash with polls, requests }

section
variable {flash : FlashDriver} {polls : Nat → Bool} {requests : List FlashRequest}

@[simp] theorem answering_cells : (flash.answering polls requests).cells = flash.cells := rfl

@[simp] theorem answering_power : (flash.answering polls requests).power = flash.power := rfl

@[simp] theorem answering_polls : (flash.answering polls requests).polls = polls := rfl

end

/-- An erase takes effect once the write enable latch is seen; its own end may be missed. -/
theorem sectorErase_eq (flash : FlashDriver) {addr : Nat} (aligned : addr % 4096 = 0) (inside : addr < FLASH_SIZE) :
    ∃ requests, flash.sectorErase addr =
      if flash.polls 0 then (flash.polls 1, (flash.eraseCells addr).answering (fun n => flash.polls (n + 2)) requests)
      else (false, flash.answering (fun n => flash.polls (n + 1)) requests) := by
  have flashSize : FLASH_SIZE = 4194304 := rfl
  have sector : addr &&& complement32 (SECTOR_SIZE - 1) = addr := by
    rw [and_sector (by omega)]
    omega
  have valid : isAddressValid addr 1 = true := (isAddressValid_iff addr 1).mpr ⟨by omega, by omega⟩
  refine ⟨(flash.receive (.sectorErase addr)).requests, ?_⟩
  rw [sectorErase, sector, valid, receive_eq]
  cases enabled : flash.polls 0 with
  | false =>
    simp only [writeEnable, poll, enabled]
    rfl
  | true =>
    simp only [writeEnable, poll, enabled]
    rfl

theorem pageProgram_eq (flash : FlashDriver) (addr : Nat) {data : List UInt8} (nonempty : 0 < data.length)
    (inside : addr + data.length ≤ FLASH_SIZE) (page : addr % 256 + data.length ≤ 256) :
    ∃ requests, flash.pageProgram addr data =
      if flash.polls 0 then
        (flash.polls 1, (flash.programCells addr data).answering (fun n => flash.polls (n + 2)) requests)
      else (false, flash.answering (fun n => flash.polls (n + 1)) requests) := by
  have valid : isPageProgramValid addr data.length = true := by
    have address := (isAddressValid_iff addr data.length).mpr ⟨nonempty, inside⟩
    have pageSize : PAGE_SIZE = 256 := rfl
    have fits : ¬ data.length > PAGE_SIZE := by omega
    simp only [isPageProgramValid, address, and_page, fits, Bool.not_true, Bool.false_eq_true, ↓reduceIte]
    exact decide_eq_true page
  refine ⟨(flash.receive (.pageProgram addr data)).requests, ?_⟩
  rw [pageProgram, valid, receive_eq]
  cases enabled : flash.polls 0 with
  | false =>
    simp only [writeEnable, poll, enabled]
    rfl
  | true =>
    simp only [writeEnable, poll, enabled]
    rfl

theorem Responsive.answering {flash : FlashDriver} (responsive : flash.Responsive) (chip : FlashDriver)
    (same : chip.polls = flash.polls) (consumed : Nat) (requests : List FlashRequest) :
    chip.answering (fun n => flash.polls (n + consumed)) requests = { chip with requests } := by
  have polls : (fun n => flash.polls (n + consumed)) = chip.polls := by rw [same, responsive]
  rw [FlashDriver.answering, polls]

theorem pageProgram_responsive {flash : FlashDriver} (responsive : flash.Responsive) (addr : Nat) {data : List UInt8}
    (nonempty : 0 < data.length) (inside : addr + data.length ≤ FLASH_SIZE) (page : addr % 256 + data.length ≤ 256) :
    ∃ requests, flash.pageProgram addr data = (true, { flash.programCells addr data with requests }) := by
  obtain ⟨requests, program⟩ := pageProgram_eq flash addr nonempty inside page
  refine ⟨requests, ?_⟩
  rw [program, congrFun responsive 0, congrFun responsive 1, if_pos rfl]
  rw [responsive.answering (flash.programCells addr data) rfl]

theorem sectorErase_responsive {flash : FlashDriver} (responsive : flash.Responsive) {addr : Nat}
    (aligned : addr % 4096 = 0) (inside : addr < FLASH_SIZE) :
    ∃ requests, flash.sectorErase addr = (true, { flash.eraseCells addr with requests }) := by
  obtain ⟨requests, erase⟩ := sectorErase_eq flash aligned inside
  refine ⟨requests, ?_⟩
  rw [erase, congrFun responsive 0, congrFun responsive 1, if_pos rfl, responsive.answering (flash.eraseCells addr) rfl]

private theorem getD_reaching (flash : FlashDriver) (data : List UInt8) (offset : Nat) :
    (flash.reaching data).getD offset 0xFF =
      if flash.power.all (offset < ·) then data.getD offset 0xFF else 0xFF := by
  cases power : flash.power with
  | none => simp [reaching, power]
  | some left =>
    simp only [reaching, power, Option.all_some, decide_eq_true_eq, List.getD_eq_getElem?_getD, List.getElem?_take]
    split <;> rfl

theorem programCells_append (flash : FlashDriver) (addr : Nat) (front back : List UInt8) (requests : List FlashRequest) :
    ({ flash.programCells addr front with requests }).programCells (addr + front.length) back =
      { flash.programCells addr (front ++ back) with requests } := by
  simp only [programCells, FlashDriver.mk.injEq, and_true, true_and]
  refine ⟨?_, ?_⟩
  · funext a
    simp only [getD_reaching]
    by_cases before : addr ≤ a
    · by_cases after : addr + front.length ≤ a
      · have beyond : front.getD (a - addr) 0xFF = 0xFF := List.getD_eq_default _ _ (by omega)
        have shift : (front ++ back).getD (a - addr) 0xFF = back.getD (a - (addr + front.length)) 0xFF := by
          rw [List.getD_append_right _ _ _ _ (by omega)]
          congr 1
          omega
        rw [if_pos before, if_pos after, if_pos before, beyond, shift]
        cases flash.power with
        | none => simp [and_erased]
        | some left =>
          simp only [Option.map_some, Option.all_some, decide_eq_true_eq]
          have same : a - (addr + front.length) < left - front.length ↔ a - addr < left := by omega
          simp [same, and_erased]
      · rw [if_pos before, if_neg after, if_pos before, List.getD_append _ _ _ _ (by omega)]
    · rw [if_neg before, if_neg (by omega), if_neg before]
  · simp [Option.map_map, Function.comp_def, Nat.sub_sub]

theorem length_reaching_le (flash : FlashDriver) (data : List UInt8) : (flash.reaching data).length ≤ data.length := by
  rw [reaching]
  split
  · exact Nat.le_refl _
  · exact List.length_take_le' _ _

theorem programCells_nil (flash : FlashDriver) (addr : Nat) : flash.programCells addr [] = flash := by
  have cells (a : Nat) : (flash.reaching []).getD (a - addr) 0xFF = 0xFF := by
    rw [getD_reaching]
    simp
  simp only [programCells, cells, and_erased, ite_self, List.length_nil, Nat.sub_zero, Option.map_id_fun', id_eq]

end FlashDriver

namespace FlashLogStorage
open FlashDriver

structure Responsive (s : FlashLogStorage) : Prop where
  flash : s.flash.Responsive
  sharedIo : s.sharedIo = fun _ => true

theorem Responsive.lockSharedIo {s : FlashLogStorage} (responsive : s.Responsive) : s.lockSharedIo = (true, s) := by
  have same : (fun n => s.sharedIo (n + 1)) = s.sharedIo := by rw [responsive.sharedIo]
  rw [FlashLogStorage.lockSharedIo, same, congrFun responsive.sharedIo 0]

theorem first_chunk (addr : Nat) {data : List UInt8} (some' : data ≠ []) :
    ∃ chunk rest, data = chunk ++ rest ∧ chunk ≠ [] ∧ addr % PAGE_SIZE + chunk.length ≤ PAGE_SIZE ∧
      min data.length (PAGE_SIZE - (addr &&& (PAGE_SIZE - 1))) = chunk.length := by
  have left := List.length_pos_iff.mpr some'
  have pageBound : addr % 256 < 256 := Nat.mod_lt _ (by omega)
  have source : PAGE_SIZE - (addr &&& (PAGE_SIZE - 1)) = 256 - addr % 256 := by
    rw [and_page]
    rfl
  have taken : (data.take (min data.length (256 - addr % 256))).length = min data.length (256 - addr % 256) := by
    rw [List.length_take]
    omega
  refine ⟨data.take (min data.length (256 - addr % 256)), data.drop (min data.length (256 - addr % 256)),
    (List.take_append_drop _ _).symm, ?_, ?_, ?_⟩
  · rw [← List.length_pos_iff, taken]
    omega
  · rw [taken, PAGE_SIZE]
    omega
  · rw [taken, source]

theorem lockSharedIo_eq (s : FlashLogStorage) :
    s.lockSharedIo = (s.sharedIo 0, { s with sharedIo := fun n => s.sharedIo (n + 1) }) := rfl

/-- One turn of the page loop: a chunk inside its page, and the loop goes on when it was programmed. -/
theorem programPages_turn {s : FlashLogStorage} (flashEnd : s.config.endAddr ≤ FLASH_SIZE) (old : Nat) {addr : Nat} {data : List UInt8}
    (inside : addr + data.length ≤ s.config.endAddr) (some' : data ≠ []) :
    ∃ chunk rest, data = chunk ++ rest ∧ chunk ≠ [] ∧ addr % PAGE_SIZE + chunk.length ≤ PAGE_SIZE ∧
      s.programPages old addr data =
        if s.sharedIo 0 then
          if (s.flash.pageProgram addr chunk).1 then
            programPages { s with flash := (s.flash.pageProgram addr chunk).2, sharedIo := fun n => s.sharedIo (n + 1) } old
              (addr + chunk.length) rest
          else
            (none, rebuildIndexFromFlash { s with
              flash := (s.flash.pageProgram addr chunk).2, sharedIo := fun n => s.sharedIo (n + 1), writeAddr := old })
        else (none, rebuildIndexFromFlash { s with sharedIo := fun n => s.sharedIo (n + 1) }) := by
  have flashSize : FLASH_SIZE = 4194304 := rfl
  have left := List.length_pos_iff.mpr some'
  obtain ⟨chunk, rest, rfl, nonempty, page, source⟩ := first_chunk addr some'
  refine ⟨chunk, rest, rfl, nonempty, page, ?_⟩
  have room := inside
  rw [List.length_append] at room
  have wrap : u32 (addr + chunk.length) = addr + chunk.length := by
    rw [u32]
    omega
  have before : ¬ addr + chunk.length > s.config.endAddr := by omega
  rw [programPages]
  simp only [left, source, wrap, before, lockSharedIo_eq, List.take_left, List.drop_left, ↓reduceIte]
  cases s.sharedIo 0 with
  | false => rfl
  | true =>
    dsimp only
    obtain ⟨answer, flash⟩ := s.flash.pageProgram addr chunk
    cases answer <;> rfl

/-- The page loop writes all of `data` at `addr`, as far as the supply lasts. -/
theorem programPages_responsive {s : FlashLogStorage} (responsive : s.Responsive)
    (flashEnd : s.config.endAddr ≤ FLASH_SIZE) (old addr : Nat) (data : List UInt8)
    (inside : addr + data.length ≤ s.config.endAddr) :
    ∃ requests, s.programPages old addr data =
      (some (addr + data.length), { s with flash := { s.flash.programCells addr data with requests } }) := by
  induction size : data.length using Nat.strongRecOn generalizing s addr data with
  | ind size ih =>
    rw [← size]
    by_cases some' : data = []
    · subst some'
      refine ⟨s.flash.requests, ?_⟩
      rw [programPages, if_neg (by simp), programCells_nil]
      rfl
    · obtain ⟨chunk, rest, rfl, nonempty, page, turn⟩ := programPages_turn flashEnd old inside some'
      have positive := List.length_pos_iff.mpr nonempty
      rw [List.length_append] at size inside
      obtain ⟨received, program⟩ := pageProgram_responsive responsive.flash addr positive (by omega) page
      have granted : (fun n => s.sharedIo (n + 1)) = s.sharedIo := by rw [responsive.sharedIo]
      have next : ({ s with flash := { s.flash.programCells addr chunk with requests := received } } :
          FlashLogStorage).Responsive := ⟨responsive.flash, responsive.sharedIo⟩
      obtain ⟨requests, last⟩ := ih rest.length (by omega) next flashEnd (addr + chunk.length) rest
        (by change _ ≤ s.config.endAddr; omega) rfl
      simp only [programCells_append] at last
      refine ⟨requests, ?_⟩
      rw [turn, congrFun responsive.sharedIo 0, if_pos rfl, program, if_pos rfl, granted, List.length_append, ← Nat.add_assoc]
      exact last

end FlashLogStorage

end PicoWLogger
