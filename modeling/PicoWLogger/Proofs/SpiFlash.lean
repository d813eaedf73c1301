import PicoWLogger.Proofs.FlashEffects
import PicoWLogger.SpiFlash

/-! The driver on the wire does what single operations on the cells would do: addresses arrive as they were
sent, no page program wraps, and an operation is over before the next command is sent. -/

namespace PicoWLogger
open FlashDriver

namespace SpiChip
variable {chip : SpiChip}

theorem status_busy (chip : SpiChip) : chip.status &&& 0x01 = 0 ↔ chip.busy = 0 := by
  rw [status]
  by_cases idle : chip.busy = 0
  · cases chip.writeEnabled
    · simp [idle]
    · simp only [idle, ne_eq, not_true_eq_false, ↓reduceIte, iff_true]
      decide
  · cases chip.writeEnabled
    · simp [idle]
    · simp only [idle, ne_eq, not_false_eq_true, ↓reduceIte, iff_false]
      decide

theorem status_enabled (enabled : chip.writeEnabled = true) : chip.status &&& 0x02 ≠ 0 := by
  rw [status, enabled]
  by_cases idle : chip.busy = 0
  · simp [idle]
  · simp only [idle, ne_eq, not_false_eq_true, ↓reduceIte]
    decide

theorem tick_idle (chip : SpiChip) (idle : chip.busy = 0) : chip.tick = chip := by
  cases chip
  simp only at idle
  subst idle
  rfl

theorem address_bytes {addr : Nat} (inside : addr < FLASH_SIZE) :
    ((UInt8.ofNat (addr >>> 16)).toNat * 65536 + (UInt8.ofNat (addr >>> 8)).toNat * 256 + (UInt8.ofNat addr).toNat) %
      FLASH_SIZE = addr := by
  simp only [FLASH_SIZE, UInt8.toNat_ofNat', Nat.shiftRight_eq_div_pow] at inside ⊢
  omega

theorem transfer_command (chip : SpiChip) (idle : chip.busy = 0) {cmd : UInt8}
    (known : cmd = CMD_READ_DATA ∨ cmd = CMD_PAGE_PROGRAM ∨ cmd = CMD_SECTOR_ERASE) {addr : Nat} (inside : addr < FLASH_SIZE)
    (data : List UInt8) (reads : Nat) :
    chip.transfer (SpiFlash.command cmd addr ++ data) reads = chip.addressed cmd addr data reads := by
  have other : cmd ≠ CMD_READ_STATUS1 ∧ cmd ≠ CMD_WRITE_ENABLE ∧ cmd ≠ CMD_JEDEC_ID ∧ cmd ≠ CMD_CHIP_ERASE := by
    rcases known with rfl | rfl | rfl <;> decide
  simp only [SpiFlash.command, List.cons_append, List.nil_append, transfer, idle, other, address_bytes inside, ne_eq,
    not_true_eq_false, ↓reduceIte]

theorem transfer_ignored (chip : SpiChip) (deaf : chip.busy ≠ 0 ∨ chip.writeEnabled = false) {cmd : UInt8}
    (operation : cmd = CMD_PAGE_PROGRAM ∨ cmd = CMD_SECTOR_ERASE ∨ cmd = CMD_CHIP_ERASE) (rest : List UInt8) :
    (chip.transfer (cmd :: rest) 0).2 = chip := by
  have other : cmd ≠ CMD_READ_STATUS1 ∧ cmd ≠ CMD_WRITE_ENABLE ∧ cmd ≠ CMD_JEDEC_ID ∧ cmd ≠ CMD_READ_DATA := by
    rcases operation with rfl | rfl | rfl <;> decide
  by_cases idle : chip.busy = 0
  · have closed : chip.writeEnabled = false := deaf.resolve_left (not_not.mpr idle)
    have ignored : ∀ cells, chip.start cells = chip := by
      intro cells
      rw [start, closed]
      rfl
    simp only [transfer, other, idle, ne_eq, not_true_eq_false, ↓reduceIte, ignored, addressed]
    split
    · rfl
    · split
      · split
        · rfl
        · split <;> rfl
      · rfl
  · simp only [transfer, other, idle, ne_eq, not_false_eq_true, ↓reduceIte]

theorem programPage_within {addr : Nat} {data : List UInt8} (page : addr % PAGE_SIZE + data.length ≤ PAGE_SIZE) :
    chip.programPage addr data =
      fun a => if addr ≤ a then chip.cells a &&& data.getD (a - addr) 0xFF else chip.cells a := by
  have pageSize : PAGE_SIZE = 256 := rfl
  funext a
  dsimp only [programPage]
  by_cases within : addr - addr % PAGE_SIZE ≤ a ∧ a < addr - addr % PAGE_SIZE + PAGE_SIZE
  · rw [if_pos within]
    by_cases behind : addr ≤ a
    · have index : (a - (addr - addr % PAGE_SIZE) + (PAGE_SIZE - addr % PAGE_SIZE)) % PAGE_SIZE = a - addr := by
        rw [pageSize] at page within ⊢
        omega
      rw [if_pos behind, index]
    · rw [if_neg behind, List.getD_eq_default _ _ (by rw [pageSize] at page within ⊢; omega), and_erased]
  · rw [if_neg within]
    split
    · rw [List.getD_eq_default _ _ (by rw [pageSize] at page within; omega), and_erased]
    · rfl

theorem eraseSector_aligned {addr : Nat} (aligned : addr % SECTOR_SIZE = 0) :
    chip.eraseSector addr = fun a => if addr ≤ a ∧ a < addr + SECTOR_SIZE then 0xFF else chip.cells a := by
  funext a
  dsimp only [eraseSector]
  rw [aligned, Nat.sub_zero]

end SpiChip

/-- The driver's check of a page program: inside the chip and inside one page. -/
theorem FlashDriver.isPageProgramValid_true {addr len : Nat} (valid : isPageProgramValid addr len = true) :
    addr + len ≤ FLASH_SIZE ∧ 0 < len ∧ addr % PAGE_SIZE + len ≤ PAGE_SIZE := by
  rw [isPageProgramValid, and_page] at valid
  cases inside : isAddressValid addr len with
  | false => simp [inside] at valid
  | true =>
    obtain ⟨nonempty, fits⟩ := (isAddressValid_iff addr len).mp inside
    refine ⟨fits, nonempty, ?_⟩
    by_cases long : len > PAGE_SIZE
    · simp [inside, long] at valid
    · have within : addr % 256 + len ≤ PAGE_SIZE := by simpa [inside, long] using valid
      exact within

/-- The chip is idle, and every operation to come will be over before the driver stops waiting. -/
structure SpiFlash.Timely (dev : SpiFlash) : Prop where
  idle : dev.chip.busy = 0
  inTime : ∀ n, dev.chip.times n < dev.waits n

namespace SpiFlash
variable {dev : SpiFlash}

theorem readStatus1_eq (dev : SpiFlash) : dev.readStatus1 = (dev.chip.status, { dev with chip := dev.chip.tick }) := rfl

/-- Enough status reads see the operation to its end. -/
theorem pollStatus_wait (dev : SpiFlash) {reads : Nat} (enough : dev.chip.busy < reads) :
    ∃ chip, pollStatus (fun sr1 => sr1 &&& 0x01 = 0) reads dev = (true, { dev with chip }) ∧ chip.busy = 0 ∧
      chip.cells = dev.chip.cells ∧ chip.times = dev.chip.times := by
  induction reads generalizing dev with
  | zero => exact absurd enough (Nat.not_lt_zero _)
  | succ reads ih =>
    rw [pollStatus, readStatus1_eq]
    by_cases idle : dev.chip.busy = 0
    · refine ⟨dev.chip.tick, ?_, ?_, rfl, rfl⟩
      · simp only [(dev.chip.status_busy).mpr idle, decide_true, ↓reduceIte]
      · rw [dev.chip.tick_idle idle, idle]
    · have still : ¬ dev.chip.status &&& 0x01 = 0 := fun ended => idle ((dev.chip.status_busy).mp ended)
      obtain ⟨chip, rest, ended, cells, times⟩ := ih { dev with chip := dev.chip.tick }
        (by simp only [SpiChip.tick]; omega)
      refine ⟨chip, ?_, ended, cells, times⟩
      simp only [still, decide_false, Bool.false_eq_true, ↓reduceIte]
      exact rest

/-- The latch is set; one status read within the deadline is enough to see it. -/
theorem writeEnable_eq (idle : dev.chip.busy = 0) :
    dev.writeEnable = (decide (dev.enables 0 ≠ 0),
      { dev with chip := dev.chip.enable, enables := fun n => dev.enables (n + 1) }) := by
  have other : CMD_WRITE_ENABLE ≠ CMD_READ_STATUS1 := by decide
  rw [writeEnable]
  simp only [SpiChip.transfer, other, idle, ne_eq, not_true_eq_false, ↓reduceIte]
  cases reads : dev.enables 0 with
  | zero => rfl
  | succ reads =>
    have seen : dev.chip.enable.status &&& 0x02 ≠ 0 := SpiChip.status_enabled rfl
    rw [pollStatus, readStatus1_eq, dev.chip.enable.tick_idle idle]
    simp only [seen, not_false_eq_true, decide_true, ↓reduceIte, Nat.add_eq_zero_iff, Nat.one_ne_zero, and_false]

/-- An operation that the latch lets pass is waited for to its end. -/
theorem Timely.finish (timely : dev.Timely) (cells : Nat → UInt8) :
    ∃ dev' : SpiFlash,
      waitWhileBusy { dev with chip := dev.chip.enable.start cells, enables := fun n => dev.enables (n + 1) } =
        (true, dev') ∧ dev'.Timely ∧ dev'.chip.cells = cells := by
  have started : dev.chip.enable.start cells =
      { dev.chip with cells, busy := dev.chip.times 0, writeEnabled := decide (dev.chip.times 0 ≠ 0),
                      times := fun n => dev.chip.times (n + 1) } := if_pos rfl
  rw [started, waitWhileBusy]
  obtain ⟨chip, waited, ended, kept, times⟩ := pollStatus_wait
    (SpiFlash.mk { dev.chip with cells, busy := dev.chip.times 0, writeEnabled := decide (dev.chip.times 0 ≠ 0),
                                 times := fun n => dev.chip.times (n + 1) }
      (fun n => dev.enables (n + 1)) (fun n => dev.waits (n + 1))) (timely.inTime 0)
  refine ⟨_, waited, ⟨ended, ?_⟩, kept⟩
  intro n
  rw [times]
  exact timely.inTime (n + 1)

/-- An operation either changes the cells as it should and is answered, or is never sent. -/
theorem Timely.operation (timely : dev.Timely) {sent : List UInt8} {cells : Nat → UInt8}
    (starts : (dev.chip.enable.transfer sent 0).2 = dev.chip.enable.start cells) :
    ∃ ok dev', (match dev.writeEnable with
        | (false, dev) => (false, dev)
        | (true, dev) => waitWhileBusy { dev with chip := (dev.chip.transfer sent 0).2 }) = (ok, dev') ∧
      dev'.Timely ∧ dev'.chip.cells = if ok then cells else dev.chip.cells := by
  rw [writeEnable_eq timely.idle]
  by_cases refused : dev.enables 0 = 0
  · refine ⟨false, { dev with chip := dev.chip.enable, enables := fun n => dev.enables (n + 1) }, ?_,
      ⟨timely.idle, timely.inTime⟩, rfl⟩
    rw [decide_eq_false (not_not.mpr refused)]
  · obtain ⟨dev', waited, timely', changed⟩ := timely.finish cells
    refine ⟨true, dev', ?_, timely', changed⟩
    rw [decide_eq_true refused]
    dsimp only
    rw [starts]
    exact waited

def flash (dev : SpiFlash) (polls : Nat → Bool) (requests : List FlashRequest) : FlashDriver :=
  { cells := dev.chip.cells, polls, power := none, requests }

end SpiFlash

/-- The answers of the polls with one more in front. -/
def FlashDriver.polled (first : Bool) (later : Nat → Bool) : Nat → Bool
  | 0 => first
  | n + 1 => later n

namespace SpiFlash
variable {dev : SpiFlash}

/-- What the two polls of an operation answer when it is sent and waited for, or when it is not sent. -/
def operationPolls (ok : Bool) (later : Nat → Bool) : Nat → Bool :=
  if ok then polled true (polled true later) else polled false later

theorem flash_operation (dev : SpiFlash) (ok : Bool) (later : Nat → Bool) (requests : List FlashRequest)
    (change : FlashDriver → FlashDriver) (cells : Nat → UInt8)
    (changes : ∀ polls, change (dev.flash polls requests) = { dev.flash polls requests with cells }) {dev' : SpiFlash}
    (changed : dev'.chip.cells = if ok then cells else dev.chip.cells) :
    (match (dev.flash (operationPolls ok later) requests).writeEnable with
      | (false, flash) => (false, flash)
      | (true, flash) => (change flash).waitWhileBusy) = (ok, dev'.flash later requests) := by
  have after : dev'.flash later requests =
      { cells := if ok then cells else dev.chip.cells, polls := later, power := none, requests } := by
    rw [flash, changed]
  rw [after]
  cases ok with
  | false => rfl
  | true =>
    have enabled : (dev.flash (operationPolls true later) requests).writeEnable =
        (true, dev.flash (polled true later) requests) := rfl
    rw [enabled]
    dsimp only
    rw [changes]
    rfl

@[simp] theorem flash_cells (polls : Nat → Bool) (requests : List FlashRequest) :
    (dev.flash polls requests).cells = dev.chip.cells := rfl

theorem flash_receive (polls : Nat → Bool) (requests : List FlashRequest) (request : FlashRequest) :
    (dev.flash polls requests).receive request = dev.flash polls (requests ++ [request]) :=
  if_neg (Option.some_ne_none 0).symm

/-- What is read over the wire is what the cells hold. -/
theorem Timely.read (timely : dev.Timely) (polls : Nat → Bool) (requests : List FlashRequest) (addr len : Nat) :
    dev.read addr len = ((dev.flash polls requests).read addr len, dev) := by
  rw [SpiFlash.read, FlashDriver.read]
  cases valid : isAddressValid addr len with
  | false => rfl
  | true =>
    have inside := (isAddressValid_iff addr len).mp valid
    have sent := dev.chip.transfer_command timely.idle (.inl rfl) (by omega : addr < FLASH_SIZE) [] len
    rw [List.append_nil] at sent
    have bytes : ((List.range len).map fun i => dev.chip.cells ((addr + i) % FLASH_SIZE)) =
        (dev.flash polls requests).cellsFrom addr len := by
      apply List.map_congr_left
      intro i below
      rw [Nat.mod_eq_of_lt (by have := List.mem_range.mp below; omega)]
      rfl
    rw [sent, ← bytes]
    rfl

theorem Timely.pageProgram (timely : dev.Timely) (addr : Nat) (data : List UInt8) :
    (dev.pageProgram addr data).2.Timely ∧ ∀ later, ∃ polls, ∀ requests, ∃ requests',
      (dev.flash polls requests).pageProgram addr data =
        ((dev.pageProgram addr data).1, (dev.pageProgram addr data).2.flash later requests') := by
  cases valid : isPageProgramValid addr data.length with
  | false =>
    have refused : dev.pageProgram addr data = (false, dev) := by rw [SpiFlash.pageProgram, valid]; rfl
    rw [refused]
    refine ⟨timely, fun later => ⟨later, fun requests => ⟨requests ++ [.pageProgram addr data], ?_⟩⟩⟩
    rw [FlashDriver.pageProgram, flash_receive, valid]
    rfl
  | true =>
    obtain ⟨inside, nonempty, page⟩ := isPageProgramValid_true valid
    have starts : (dev.chip.enable.transfer (command CMD_PAGE_PROGRAM addr ++ data) 0).2 = dev.chip.enable.start
        (fun a => if addr ≤ a then dev.chip.cells a &&& data.getD (a - addr) 0xFF else dev.chip.cells a) := by
      rw [dev.chip.enable.transfer_command timely.idle (.inr (.inl rfl)) (by omega)]
      exact congrArg dev.chip.enable.start (SpiChip.programPage_within page)
    obtain ⟨ok, dev', result, timely', changed⟩ := timely.operation starts
    have programmed : dev.pageProgram addr data = (ok, dev') := by rw [SpiFlash.pageProgram, valid]; exact result
    rw [programmed]
    refine ⟨timely', fun later => ⟨operationPolls ok later, fun requests => ⟨requests ++ [.pageProgram addr data], ?_⟩⟩⟩
    rw [FlashDriver.pageProgram, flash_receive, valid]
    exact flash_operation dev ok later _ (fun flash => flash.programCells addr data) _ (fun _ => rfl) changed

theorem sectorAddr_aligned (addr : Nat) : (addr &&& complement32 (SECTOR_SIZE - 1)) % SECTOR_SIZE = 0 := by
  have mask : complement32 (SECTOR_SIZE - 1) % 2 ^ 12 = 0 := by decide
  have sector : SECTOR_SIZE = 2 ^ 12 := rfl
  rw [sector] at mask ⊢
  rw [Nat.and_mod_two_pow, mask, Nat.and_zero]

theorem Timely.sectorErase (timely : dev.Timely) (addr : Nat) :
    (dev.sectorErase addr).2.Timely ∧ ∀ later, ∃ polls, ∀ requests, ∃ requests',
      (dev.flash polls requests).sectorErase addr =
        ((dev.sectorErase addr).1, (dev.sectorErase addr).2.flash later requests') := by
  have aligned := sectorAddr_aligned addr
  generalize sector : addr &&& complement32 (SECTOR_SIZE - 1) = sectorAddr at aligned
  cases valid : isAddressValid sectorAddr 1 with
  | false =>
    have refused : dev.sectorErase addr = (false, dev) := by rw [SpiFlash.sectorErase, sector, valid]; rfl
    rw [refused]
    refine ⟨timely, fun later => ⟨later, fun requests => ⟨requests ++ [.sectorErase addr], ?_⟩⟩⟩
    rw [FlashDriver.sectorErase, sector, flash_receive, valid]
    rfl
  | true =>
    have inside := (isAddressValid_iff sectorAddr 1).mp valid
    have sent := dev.chip.enable.transfer_command timely.idle (.inr (.inr rfl))
      (by omega : sectorAddr < FLASH_SIZE) [] 0
    rw [List.append_nil] at sent
    have starts : (dev.chip.enable.transfer (command CMD_SECTOR_ERASE sectorAddr) 0).2 = dev.chip.enable.start
        (fun a => if sectorAddr ≤ a ∧ a < sectorAddr + SECTOR_SIZE then 0xFF else dev.chip.cells a) := by
      rw [sent]
      exact congrArg dev.chip.enable.start (SpiChip.eraseSector_aligned aligned)
    obtain ⟨ok, dev', result, timely', changed⟩ := timely.operation starts
    have erased : dev.sectorErase addr = (ok, dev') := by rw [SpiFlash.sectorErase, sector, valid]; exact result
    rw [erased]
    refine ⟨timely', fun later => ⟨operationPolls ok later, fun requests => ⟨requests ++ [.sectorErase addr], ?_⟩⟩⟩
    rw [FlashDriver.sectorErase, sector, flash_receive, valid]
    refine flash_operation dev ok later _ (fun flash => flash.eraseCells sectorAddr) _ ?_ changed
    intro polls
    have steady : (none : Option Nat) ≠ some 0 := (Option.some_ne_none 0).symm
    simp only [eraseCells, flash, steady, ne_eq, not_false_eq_true, true_and, Option.map_none]

theorem Timely.chipErase (timely : dev.Timely) :
    dev.chipErase.2.Timely ∧ ∀ later, ∃ polls, ∀ requests,
      (dev.flash polls requests).chipErase = (dev.chipErase.1, dev.chipErase.2.flash later requests) := by
  have other : CMD_CHIP_ERASE ≠ CMD_READ_STATUS1 ∧ CMD_CHIP_ERASE ≠ CMD_WRITE_ENABLE ∧ CMD_CHIP_ERASE ≠ CMD_JEDEC_ID := by
    decide
  have starts : (dev.chip.enable.transfer [CMD_CHIP_ERASE] 0).2 = dev.chip.enable.start fun _ => 0xFF := by
    have idle : dev.chip.enable.busy = 0 := timely.idle
    simp only [SpiChip.transfer, other, idle, ne_eq, not_true_eq_false, ↓reduceIte]
  obtain ⟨ok, dev', result, timely', changed⟩ := timely.operation starts
  have erased : dev.chipErase = (ok, dev') := result
  rw [erased]
  refine ⟨timely', fun later => ⟨operationPolls ok later, fun requests => ?_⟩⟩
  exact flash_operation dev ok later requests (fun flash => { flash with cells := fun _ => 0xFF }) _ (fun _ => rfl) changed

/-- One call on the wire is one call of the model, which then stands at the cells the chip has. -/
theorem Timely.call (timely : dev.Timely) (next : DriverCall) :
    (dev.call next).2.Timely ∧ ∀ later, ∃ polls, ∀ requests, ∃ requests',
      (dev.flash polls requests).call next = ((dev.call next).1, (dev.call next).2.flash later requests') := by
  cases next with
  | read addr len =>
    have bytes := timely.read
    refine ⟨?_, fun later => ⟨later, fun requests => ⟨requests, ?_⟩⟩⟩
    · rw [SpiFlash.call, bytes (fun _ => true) []]
      exact timely
    · rw [SpiFlash.call, FlashDriver.call, bytes later requests]
  | pageProgram addr data =>
    obtain ⟨timely', same⟩ := timely.pageProgram addr data
    refine ⟨timely', fun later => ?_⟩
    obtain ⟨polls, same⟩ := same later
    refine ⟨polls, fun requests => ?_⟩
    obtain ⟨requests', same⟩ := same requests
    exact ⟨requests', by rw [FlashDriver.call, same]; rfl⟩
  | sectorErase addr =>
    obtain ⟨timely', same⟩ := timely.sectorErase addr
    refine ⟨timely', fun later => ?_⟩
    obtain ⟨polls, same⟩ := same later
    refine ⟨polls, fun requests => ?_⟩
    obtain ⟨requests', same⟩ := same requests
    exact ⟨requests', by rw [FlashDriver.call, same]; rfl⟩
  | chipErase =>
    obtain ⟨timely', same⟩ := timely.chipErase
    refine ⟨timely', fun later => ?_⟩
    obtain ⟨polls, same⟩ := same later
    exact ⟨polls, fun requests => ⟨requests, by rw [FlashDriver.call, same]; rfl⟩⟩

/-- Every run of calls over the wire gets the answers, and leaves the cells, of a run where each
operation is a single change of the cells. -/
theorem session_single_operations (dev : SpiFlash) (timely : dev.Timely) (calls : List DriverCall) :
    ∃ polls, ∀ requests, ((dev.flash polls requests).session calls).1 = (dev.session calls).1 ∧
      ((dev.flash polls requests).session calls).2.cells = (dev.session calls).2.chip.cells := by
  induction calls generalizing dev with
  | nil => exact ⟨fun _ => true, fun requests => ⟨rfl, rfl⟩⟩
  | cons next rest ih =>
    obtain ⟨timely', one⟩ := timely.call next
    obtain ⟨later, more⟩ := ih (dev.call next).2 timely'
    obtain ⟨polls, one⟩ := one later
    refine ⟨polls, fun requests => ?_⟩
    obtain ⟨requests', one⟩ := one requests
    obtain ⟨answers, cells⟩ := more requests'
    rw [FlashDriver.session, one]
    exact ⟨congrArg ((dev.call next).1 :: ·) answers, cells⟩

/-- A page and its sector, written and read back. -/
theorem session_single_operations_page :
    let chip : SpiChip :=
      { cells := fun _ => 0, jedecId := [0xEF, 0x40, 0x16], writeEnabled := false, busy := 0, times := fun _ => 1 }
    let dev : SpiFlash := { chip, enables := fun _ => 1, waits := fun _ => 2 }
    let calls : List DriverCall := [.sectorErase 4096, .pageProgram 4096 [1, 2, 3], .read 4095 3]
    ∃ polls, ∀ requests, ((dev.flash polls requests).session calls).1 = (dev.session calls).1 ∧
      ((dev.flash polls requests).session calls).2.cells = (dev.session calls).2.chip.cells := by
  intro chip dev calls
  exact session_single_operations dev ⟨rfl, fun _ => Nat.lt_succ_self 1⟩ calls

/-- An operation is sent as its command byte with what follows; an idle chip with its latch set starts it. -/
theorem call_operation (dev : SpiFlash) {next : DriverCall} (operation : next.isOperation = true) :
    ∃ cmd rest, (cmd = CMD_PAGE_PROGRAM ∨ cmd = CMD_SECTOR_ERASE ∨ cmd = CMD_CHIP_ERASE) ∧
      (dev.chip.busy = 0 → ∃ cells, (dev.chip.enable.transfer (cmd :: rest) 0).2 = dev.chip.enable.start cells) ∧
      ∀ ok dev', (match dev.writeEnable with
        | (false, dev) => (false, dev)
        | (true, dev) => waitWhileBusy { dev with chip := (dev.chip.transfer (cmd :: rest) 0).2 }) = (ok, dev') →
        dev.call next = (.done ok, dev') := by
  cases next with
  | read addr len => exact absurd operation Bool.false_ne_true
  | pageProgram addr data =>
    have valid : isPageProgramValid addr data.length = true := operation
    obtain ⟨inside, nonempty, -⟩ := isPageProgramValid_true valid
    refine ⟨CMD_PAGE_PROGRAM, (command CMD_PAGE_PROGRAM addr).tail ++ data, .inl rfl, fun idle => ?_,
      fun ok dev' result => ?_⟩
    · have sent := dev.chip.enable.transfer_command idle (.inr (.inl rfl)) (by omega : addr < FLASH_SIZE) data 0
      exact ⟨_, congrArg Prod.snd sent⟩
    · have programmed : dev.pageProgram addr data = (ok, dev') := by rw [SpiFlash.pageProgram, valid]; exact result
      rw [call, programmed]
  | sectorErase addr =>
    have valid : isAddressValid (addr &&& complement32 (SECTOR_SIZE - 1)) 1 = true := operation
    have inside := (isAddressValid_iff _ 1).mp valid
    refine ⟨CMD_SECTOR_ERASE, (command CMD_SECTOR_ERASE (addr &&& complement32 (SECTOR_SIZE - 1))).tail, .inr (.inl rfl),
      fun idle => ?_, fun ok dev' result => ?_⟩
    · have sent := dev.chip.enable.transfer_command idle (.inr (.inr rfl)) inside.2 [] 0
      rw [List.append_nil] at sent
      exact ⟨_, congrArg Prod.snd sent⟩
    · have erased : dev.sectorErase addr = (ok, dev') := by rw [SpiFlash.sectorErase, valid]; exact result
      rw [call, erased]
  | chipErase =>
    refine ⟨CMD_CHIP_ERASE, [], .inr (.inr rfl), fun idle => ⟨fun _ => 0xFF, ?_⟩, fun ok dev' result => ?_⟩
    · have idle : dev.chip.enable.busy = 0 := idle
      have other : CMD_CHIP_ERASE ≠ CMD_READ_STATUS1 ∧ CMD_CHIP_ERASE ≠ CMD_WRITE_ENABLE ∧
        CMD_CHIP_ERASE ≠ CMD_JEDEC_ID := by decide
      simp only [SpiChip.transfer, other, idle, ne_eq, not_true_eq_false, ↓reduceIte]
    · have erased : dev.chipErase = (ok, dev') := result
      rw [call, erased]

theorem pollStatus_late (dev : SpiFlash) {reads : Nat} (late : reads < dev.chip.busy) :
    ∃ chip, pollStatus (fun sr1 => sr1 &&& 0x01 = 0) reads dev = (false, { dev with chip }) ∧
      chip.busy = dev.chip.busy - reads ∧ chip.writeEnabled = dev.chip.writeEnabled ∧ chip.cells = dev.chip.cells := by
  induction reads generalizing dev with
  | zero => exact ⟨dev.chip, rfl, rfl, rfl, rfl⟩
  | succ reads ih =>
    have still : ¬ dev.chip.status &&& 0x01 = 0 := by
      intro ended
      rw [(dev.chip.status_busy).mp ended] at late
      exact Nat.not_lt_zero _ late
    obtain ⟨chip, rest, busy, latch, cells⟩ := ih { dev with chip := dev.chip.tick } (by simp only [SpiChip.tick]; omega)
    refine ⟨chip, ?_, ?_, ?_, cells⟩
    · rw [pollStatus, readStatus1_eq]
      simp only [still, decide_false, Bool.false_eq_true, ↓reduceIte]
      exact rest
    · rw [busy]
      simp only [SpiChip.tick]
      omega
    · rw [latch]
      exact if_neg (by omega)

/-- An operation sent to a chip that stays busy for longer than the driver waits. -/
theorem call_late (dev : SpiFlash) (idle : dev.chip.busy = 0) (enabled : dev.enables 0 ≠ 0)
    (late : dev.waits 0 < dev.chip.times 0) {next : DriverCall} (operation : next.isOperation = true) :
    ∃ dev', dev.call next = (.done false, dev') ∧ dev'.chip.busy = dev.chip.times 0 - dev.waits 0 ∧
      dev'.chip.writeEnabled = true ∧ (∀ n, dev'.enables n = dev.enables (n + 1)) ∧
      ∀ n, dev'.waits n = dev.waits (n + 1) := by
  obtain ⟨cmd, rest, -, starts, result⟩ := dev.call_operation operation
  obtain ⟨cells, starts⟩ := starts idle
  have started : dev.chip.enable.start cells =
      { dev.chip with cells, busy := dev.chip.times 0, writeEnabled := decide (dev.chip.times 0 ≠ 0),
                      times := fun n => dev.chip.times (n + 1) } := if_pos rfl
  obtain ⟨chip, waited, left, latch, -⟩ := pollStatus_late
    (SpiFlash.mk { dev.chip with cells, busy := dev.chip.times 0, writeEnabled := decide (dev.chip.times 0 ≠ 0),
                                 times := fun n => dev.chip.times (n + 1) }
      (fun n => dev.enables (n + 1)) (fun n => dev.waits (n + 1))) late
  refine ⟨{ chip, enables := fun n => dev.enables (n + 1), waits := fun n => dev.waits (n + 1) }, result false _ ?_, left, ?_,
    fun _ => rfl, fun _ => rfl⟩
  · rw [writeEnable_eq idle, decide_eq_true enabled]
    dsimp only
    rw [starts, started]
    exact waited
  · rw [latch]
    exact decide_eq_true (Nat.ne_of_gt (Nat.lt_of_le_of_lt (Nat.zero_le _) late))

/-- An operation sent while the last one is still going on. -/
theorem call_during (dev : SpiFlash) (busy : dev.chip.busy ≠ 0) (latched : dev.chip.writeEnabled = true)
    (enabled : dev.enables 0 ≠ 0) (enough : dev.chip.busy ≤ dev.waits 0) {next : DriverCall}
    (operation : next.isOperation = true) :
    ∃ dev', dev.call next = (.done true, dev') ∧ dev'.chip.cells = dev.chip.cells := by
  obtain ⟨cmd, rest, known, -, result⟩ := dev.call_operation operation
  have ignored : (dev.chip.transfer [CMD_WRITE_ENABLE] 0).2 = dev.chip := by
    have other : CMD_WRITE_ENABLE ≠ CMD_READ_STATUS1 := by decide
    simp only [SpiChip.transfer, other, busy, ne_eq, not_false_eq_true, ↓reduceIte]
  have seen : dev.writeEnable = (true, { dev with chip := dev.chip.tick, enables := fun n => dev.enables (n + 1) }) := by
    obtain ⟨reads, some⟩ := Nat.exists_eq_succ_of_ne_zero enabled
    rw [writeEnable, ignored, some, pollStatus, readStatus1_eq]
    simp only [SpiChip.status_enabled latched, ne_eq, not_false_eq_true, decide_true, ↓reduceIte]
  have deaf : dev.chip.tick.busy ≠ 0 ∨ dev.chip.tick.writeEnabled = false := by
    by_cases last : dev.chip.busy = 1
    · exact .inr (if_pos last)
    · refine .inl ?_
      simp only [SpiChip.tick]
      omega
  obtain ⟨chip, waited, -, cells, -⟩ := pollStatus_wait
    (SpiFlash.mk dev.chip.tick (fun n => dev.enables (n + 1)) (fun n => dev.waits (n + 1)))
    (by simp only [SpiChip.tick]; omega : dev.chip.tick.busy < dev.waits 0)
  refine ⟨{ chip, enables := fun n => dev.enables (n + 1), waits := fun n => dev.waits (n + 1) }, result true _ ?_, cells⟩
  rw [seen]
  dsimp only
  rw [dev.chip.tick.transfer_ignored deaf known]
  exact waited

/-- When an operation outlasts its wait, the driver reports it as failed, and the next one as done: that one
finds the latch still set, is sent to a chip that does not take it, and is waited for. -/
theorem late_operation_drops_next (dev : SpiFlash) (idle : dev.chip.busy = 0) (enabled : ∀ n, 0 < dev.enables n)
    {first second : DriverCall} (operations : first.isOperation = true ∧ second.isOperation = true)
    (late : dev.waits 0 < dev.chip.times 0) (ended : dev.chip.times 0 ≤ dev.waits 0 + dev.waits 1) :
    (dev.session [first, second]).1 = [.done false, .done true] ∧
      (dev.session [first, second]).2.chip.cells = (dev.session [first]).2.chip.cells := by
  obtain ⟨dev', one, busy, latched, enables, waits⟩ :=
    dev.call_late idle (Nat.ne_of_gt (enabled 0)) late operations.1
  obtain ⟨dev'', two, same⟩ := dev'.call_during (by omega) latched (by rw [enables]; exact Nat.ne_of_gt (enabled 1))
    (by rw [busy, waits, Nat.sub_le_iff_le_add']; exact ended) operations.2
  rw [session, session, session, session, one]
  dsimp only
  rw [two]
  exact ⟨rfl, same⟩

/-- A chip erase that lasts longer than the wait, and a page program behind it. -/
theorem late_operation_drops_next_erase :
    let chip : SpiChip :=
      { cells := fun _ => 0, jedecId := [0xEF, 0x40, 0x16], writeEnabled := false, busy := 0, times := fun _ => 3 }
    let dev : SpiFlash := { chip, enables := fun _ => 1, waits := fun _ => 2 }
    (dev.session [.chipErase, .pageProgram 0 [1, 2, 3]]).1 = [.done false, .done true] ∧
      (dev.session [.chipErase, .pageProgram 0 [1, 2, 3]]).2.chip.cells = (dev.session [.chipErase]).2.chip.cells := by
  intro chip dev
  exact late_operation_drops_next dev rfl (fun _ => Nat.one_pos) ⟨rfl, by decide⟩ (by decide) (by decide)

end SpiFlash

end PicoWLogger
