import PicoWLogger.Proofs.AppendEffect
import PicoWLogger.SharedIo

/-! What the mutex keeps apart: every driver takes it for a transfer or a flash write and gives it back on every
path, so in no interleaving does one of them meet another. The programs of the storage compute its model. -/

namespace PicoWLogger
open SharedLock

/-- The bus after a transfer that ended without a stop belongs to the read of that device. -/
def sharedBus : Protocol IoOp IoReply where
  State := Option UInt8
  free := none
  allowed
    | none, .i2cRead _ _ => False
    | none, _ => True
    | some address, .i2cRead reader _ => reader = address
    | some _, _ => False
  next
    | none, .i2cWrite address bytes nostop, ret =>
      let sent : Int := ret
      if nostop ∧ sent = bytes.length then some address else none
    | _, _, _ => none

namespace FlashLogStorage
open FlashDriver

/-- What the environment of the storage answers from. -/
def io (s : FlashLogStorage) : (Nat → Bool) × FlashDriver := (s.sharedIo, s.flash)

def takeIo (world : (Nat → Bool) × FlashDriver) : Bool × (Nat → Bool) × FlashDriver :=
  (world.1 0, fun n => world.1 (n + 1), world.2)

def performIo (world : (Nat → Bool) × FlashDriver) : (op : IoOp) → IoReply op × (Nat → Bool) × FlashDriver
  | .i2cWrite _ _ _ => ((-1 : Int), world)
  | .i2cRead _ length => (((-1 : Int), Vector.replicate length 0), world)
  | .pageProgram addr data => (world.2.pageProgram addr data, world.1, (world.2.pageProgram addr data).2)
  | .sectorErase addr => (world.2.sectorErase addr, world.1, (world.2.sectorErase addr).2)

theorem invalidate_io (s : FlashLogStorage) (sectorAddr : Nat) : (s.invalidateFramesInErasedSector sectorAddr).io = s.io := by
  rw [invalidate_keeps]
  rfl

theorem rebuild_io (s : FlashLogStorage) : s.rebuildIndexFromFlash.io = s.io := by
  rw [rebuildIndexFromFlash_keeps]
  rfl

theorem updateIndex_io (s : FlashLogStorage) (frameAddr : Nat) (header : LogFrameHeader) :
    (s.updateIndexAfterAppend frameAddr header).io = s.io := by
  rw [updateIndex_keeps]
  rfl

theorem takeIo_io (s : FlashLogStorage) : takeIo s.io = (s.sharedIo 0, s.takeSharedIo.io) := rfl

theorem performIo_sectorErase (s : FlashLogStorage) (addr : Nat) :
    performIo s.io (.sectorErase addr) = (s.flash.sectorErase addr, (s.withFlash (s.flash.sectorErase addr).2).io) := rfl

theorem performIo_pageProgram (s : FlashLogStorage) (addr : Nat) (data : List UInt8) :
    performIo s.io (.pageProgram addr data) =
      (s.flash.pageProgram addr data, (s.withFlash (s.flash.pageProgram addr data).2).io) := rfl

/-- A failure of the object behind what the environment has done leaves that as it is. -/
theorem failed_io (s : FlashLogStorage) (value : α) :
    ((value, s.rebuildIndexFromFlash), s.io) = ((value, s.rebuildIndexFromFlash), s.rebuildIndexFromFlash.io) :=
  congrArg (Prod.mk _) (rebuild_io s).symm

theorem beginSectorProgram_run (s : FlashLogStorage) (addr : Nat) :
    (s.beginSectorProgram addr).run takeIo performIo s.io = (s.beginSector addr, (s.beginSector addr).2.io) := by
  rw [beginSectorProgram, beginSector]
  split
  · rfl
  · rw [← invalidate_io s addr]
    generalize s.invalidateFramesInErasedSector addr = t
    have locked : t.lockSharedIo = (t.sharedIo 0, t.takeSharedIo) := rfl
    have same : t.takeSharedIo.flash = t.flash := rfl
    dsimp only [Program.run]
    rw [takeIo_io, locked]
    cases t.sharedIo 0 with
    | false => exact failed_io t.takeSharedIo false
    | true =>
      simp only [↓reduceIte, Program.run, performIo_sectorErase, same]
      cases t.flash.sectorErase addr with
      | mk ok flash =>
        cases ok with
        | false => exact failed_io (t.takeSharedIo.withFlash flash) false
        | true => rfl

theorem programPagesProgram_run (s : FlashLogStorage) (oldWriteAddr addr : Nat) (p : List UInt8) :
    (s.programPagesProgram oldWriteAddr addr p).run takeIo performIo s.io =
      (s.programPages oldWriteAddr addr p, (s.programPages oldWriteAddr addr p).2.io) := by
  induction sized : p.length using Nat.strongRecOn generalizing s addr p with
  | ind size ih =>
    rw [programPagesProgram, programPages]
    split
    next some' =>
      dsimp only
      split
      · exact failed_io { s with writeAddr := oldWriteAddr } none
      · have locked : s.lockSharedIo = (s.sharedIo 0, s.takeSharedIo) := rfl
        have same : s.takeSharedIo.flash = s.flash := rfl
        generalize part : min p.length (PAGE_SIZE - (addr &&& (PAGE_SIZE - 1))) = chunk
        have positive : 0 < chunk := by
          have offset : addr &&& (PAGE_SIZE - 1) < PAGE_SIZE := Nat.lt_succ_of_le Nat.and_le_right
          omega
        dsimp only [Program.run]
        rw [takeIo_io, locked]
        cases s.sharedIo 0 with
        | false => exact failed_io s.takeSharedIo none
        | true =>
          simp only [↓reduceIte, Program.run, performIo_pageProgram, same]
          cases s.flash.pageProgram addr (p.take chunk) with
          | mk ok flash =>
            cases ok with
            | false => exact failed_io { s.takeSharedIo.withFlash flash with writeAddr := oldWriteAddr } none
            | true =>
              have shorter : (p.drop chunk).length < size := by
                rw [List.length_drop]
                omega
              exact ih _ shorter (s.takeSharedIo.withFlash flash) (u32 (addr + chunk)) (p.drop chunk) rfl
    · rfl

/-- The program of `append` computes `append`. -/
theorem appendProgram_run (s : FlashLogStorage) (data : List UInt8) :
    (s.appendProgram data).run takeIo performIo s.io = (s.append data, (s.append data).2.io) := by
  rw [appendProgram, append]
  split
  · rfl
  · split
    · rfl
    · split
      · rfl
      · dsimp only
        split
        · rfl
        · rw [Program.run_bind, beginSectorProgram_run]
          cases s.beginSector (s.appendAddress data.length) with
          | mk ok t =>
            cases ok with
            | false => rfl
            | true =>
              dsimp only
              rw [Program.run_bind, programPagesProgram_run]
              cases t.programPages s.writeAddr (s.appendAddress data.length) data with
              | mk last t =>
                cases last with
                | none => rfl
                | some last =>
                  dsimp only
                  cases isValidFrameAt { t with writeAddr := t.wrapAddress last } (s.appendAddress data.length) with
                  | none => exact failed_io { t with writeAddr := s.writeAddr } false
                  | some found =>
                    exact congrArg (Prod.mk _) (updateIndex_io { t with writeAddr := t.wrapAddress last } _ found.1).symm

theorem eraseSectorsProgram_run (s : FlashLogStorage) (endAddr addr : Nat) :
    (s.eraseSectorsProgram endAddr addr).run takeIo performIo s.io =
      (s.eraseSectors endAddr addr, (s.eraseSectors endAddr addr).2.io) := by
  induction left : endAddr - addr using Nat.strongRecOn generalizing s addr with
  | ind left' ih =>
    rw [eraseSectorsProgram, eraseSectors]
    split
    next more =>
      have locked : s.lockSharedIo = (s.sharedIo 0, s.takeSharedIo) := rfl
      have same : s.takeSharedIo.flash = s.flash := rfl
      dsimp only [Program.run]
      rw [takeIo_io, locked]
      cases s.sharedIo 0 with
      | false => rfl
      | true =>
        simp only [↓reduceIte, Program.run, performIo_sectorErase, same]
        cases s.flash.sectorErase addr with
        | mk ok flash =>
          cases ok with
          | false => rfl
          | true =>
            have nearer : endAddr - (addr + SECTOR_SIZE) < left' := by
              simp only [SECTOR_SIZE]
              omega
            simp only [↓reduceIte]
            exact ih _ nearer (s.takeSharedIo.withFlash flash) (addr + SECTOR_SIZE) rfl
    · rfl

theorem eraseLogAreaProgram_run (s : FlashLogStorage) :
    s.eraseLogAreaProgram.run takeIo performIo s.io = (s.eraseLogArea, s.eraseLogArea.2.io) := by
  rw [eraseLogAreaProgram, eraseLogArea]
  split
  · rfl
  · split
    · rfl
    · have sectors := eraseSectorsProgram_run { s with maintenanceBusy := true } s.config.endAddr s.config.startAddr
      have start : io { s with maintenanceBusy := true } = s.io := rfl
      rw [start] at sectors
      rw [Program.run_bind, sectors]
      cases eraseSectors { s with maintenanceBusy := true } s.config.endAddr s.config.startAddr with
      | mk ok t => cases ok <;> rfl

end FlashLogStorage

section Conforming
variable {rest : Int → IoProgram α} {late : IoProgram α}

theorem done_conforms (value : α) : Conforms sharedBus none (.done value : IoProgram α) := rfl

theorem sharedBus_write (address : UInt8) (bytes : List UInt8) (nostop : Bool) (ret : Int) :
    sharedBus.next sharedBus.free (.i2cWrite address bytes nostop) ret =
      if nostop = true ∧ ret = bytes.length then some address else none := rfl

/-- A write that ends with a stop, between a take and a give. -/
theorem write_conforms (address : UInt8) (bytes : List UInt8) (gaveUp : Conforms sharedBus none late)
    (after : ∀ ret, Conforms sharedBus none (rest ret)) :
    Conforms sharedBus none (lockI2c true fun got =>
      if got then .perform (.i2cWrite address bytes false) fun (ret : Int) => unlockI2c true (rest ret) else late) := by
  refine Conforms.guarded trivial (fun ret => ?_) gaveUp after
  exact (sharedBus_write address bytes false ret).trans (if_neg fun sent => Bool.false_ne_true sent.1)

/-- The pointer of a register and the read behind it, in one take. -/
theorem read_conforms (address reg : UInt8) (length : Nat) {refused : IoProgram α}
    {filled : Int × Vector UInt8 length → IoProgram α} (gaveUp : Conforms sharedBus none late)
    (stopped : Conforms sharedBus none refused) (after : ∀ reply, Conforms sharedBus none (filled reply)) :
    Conforms sharedBus none (lockI2c true fun got =>
      if got then
        .perform (.i2cWrite address [reg] true) fun (ret : Int) =>
          if ret ≠ 1 then unlockI2c true refused
          else .perform (.i2cRead address length) fun reply => unlockI2c true (filled reply)
      else late) := by
  refine ⟨rfl, gaveUp, none, rfl, trivial, ?_⟩
  intro (ret : Int)
  have bus := sharedBus_write address [reg] true ret
  by_cases sent : ret = 1
  · rw [if_pos ⟨rfl, sent⟩] at bus
    dsimp only
    rw [if_neg (not_not.mpr sent)]
    exact ⟨(some address : Option UInt8), congrArg some bus, rfl, fun reply => ⟨rfl, after reply⟩⟩
  · rw [if_neg fun both => sent both.2] at bus
    dsimp only
    rw [if_pos sent]
    exact ⟨congrArg some bus, stopped⟩

theorem AEADT7410.writeReg_conforms {dev : AEADT7410} (mutex : dev.i2cMutex = true) (reg value : UInt8) :
    Conforms sharedBus none (dev.writeReg reg value) := by
  rw [AEADT7410.writeReg, mutex]
  exact write_conforms dev.address [reg, value] (done_conforms false) fun _ => done_conforms _

theorem AEADT7410.readTempRaw_conforms {dev : AEADT7410} (mutex : dev.i2cMutex = true) :
    Conforms sharedBus none dev.readTempRaw := by
  rw [AEADT7410.readTempRaw, mutex]
  exact read_conforms dev.address TEMP_REG 2 (done_conforms none) (done_conforms none) fun _ => done_conforms _

theorem AQM0802.write_conforms {lcd : AQM0802} (mutex : lcd.i2cMutex = true) (control value : UInt8) :
    Conforms sharedBus none (lcd.write control value) := by
  rw [AQM0802.write, mutex]
  exact PicoWLogger.write_conforms lcd.address [control, value] (done_conforms false) fun _ => done_conforms _

theorem AQM0802.commands_conforms {lcd : AQM0802} (mutex : lcd.i2cMutex = true) (table : List UInt8) :
    Conforms sharedBus none (lcd.commands table) := by
  induction table with
  | nil => rfl
  | cons cmd rest ih =>
    refine (write_conforms mutex AQM0802_CMD cmd).bind fun ok => ?_
    cases ok with
    | false => rfl
    | true => exact ih

theorem AQM0802.print_conforms {lcd : AQM0802} (mutex : lcd.i2cMutex = true) (str : List UInt8) :
    Conforms sharedBus none (lcd.print str) := by
  induction str with
  | nil => rfl
  | cons char rest ih =>
    refine (write_conforms mutex AQM0802_DATA char).bind fun ok => ?_
    cases ok with
    | false => rfl
    | true => exact ih

theorem AQM0802.printLine_conforms {lcd : AQM0802} (mutex : lcd.i2cMutex = true) (row : UInt8) (str : List UInt8) :
    Conforms sharedBus none (lcd.printLine row str) := by
  refine Conforms.bind (write_conforms mutex AQM0802_CMD _) fun ok => ?_
  cases ok with
  | false => rfl
  | true => exact print_conforms mutex (line str)

theorem AQM0802.init_conforms {lcd : AQM0802} (mutex : lcd.i2cMutex = true) : Conforms sharedBus none lcd.init := by
  refine (commands_conforms mutex initCmds1).bind fun ok => ?_
  cases ok with
  | false => rfl
  | true => exact commands_conforms mutex initCmds2

namespace Bme280.BME280
variable {dev : BME280} (mutex : dev.i2cMutex = true)
include mutex

theorem writeRegister8_conforms (reg value : UInt8) : Conforms sharedBus none (dev.writeRegister8 reg value) := by
  rw [writeRegister8, mutex]
  exact write_conforms dev.address [reg, value] (done_conforms false) fun _ => done_conforms _

theorem readRegisters_conforms (startReg : UInt8) (length : Nat) :
    Conforms sharedBus none (dev.readRegisters startReg length) := by
  rw [readRegisters, mutex]
  split
  · rfl
  · exact read_conforms dev.address startReg length (done_conforms none) (done_conforms none) fun _ => done_conforms _

theorem readCalibration_conforms : Conforms sharedBus none dev.readCalibration := by
  refine (readRegisters_conforms mutex REG_CALIB00 26).bind fun b1 => ?_
  cases b1 with
  | none => rfl
  | some b1 =>
    refine (readRegisters_conforms mutex REG_CALIB26 7).bind fun b2 => ?_
    cases b2 <;> rfl

theorem writeRegisters_conforms (table : List (UInt8 × UInt8)) : Conforms sharedBus none (dev.writeRegisters table) := by
  induction table with
  | nil => rfl
  | cons entry rest ih =>
    refine (writeRegister8_conforms mutex entry.1 entry.2).bind fun ok => ?_
    cases ok with
    | false => rfl
    | true => exact ih

theorem init_conforms : Conforms sharedBus none dev.init := by
  refine ((readRegisters_conforms mutex REG_ID 1).bind fun _ => done_conforms _).bind fun id => ?_
  cases id with
  | none => rfl
  | some id =>
    dsimp only
    split
    · rfl
    · refine (readCalibration_conforms mutex).bind fun calibrated => ?_
      cases calibrated with
      | none => rfl
      | some cal =>
        have normal : Conforms sharedBus none ({ dev with cal } : BME280).configureNormalMode :=
          writeRegisters_conforms mutex normalMode
        exact normal.bind fun _ => done_conforms _

theorem read_conforms : Conforms sharedBus none dev.read :=
  ((readRegisters_conforms mutex REG_DATA 8).bind fun _ => done_conforms _).bind fun _ => done_conforms _

end Bme280.BME280

namespace FlashLogStorage

theorem beginSectorProgram_conforms (s : FlashLogStorage) (addr : Nat) : Conforms sharedBus none (s.beginSectorProgram addr) := by
  rw [beginSectorProgram]
  split
  · rfl
  · exact Conforms.guarded trivial (fun _ => rfl) (done_conforms _) fun _ => done_conforms _

theorem programPagesProgram_conforms (s : FlashLogStorage) (oldWriteAddr addr : Nat) (p : List UInt8) :
    Conforms sharedBus none (s.programPagesProgram oldWriteAddr addr p) := by
  fun_induction programPagesProgram s oldWriteAddr addr p with
  | case1 => rfl
  | case2 s addr p some' offset remain chunk inside ih =>
    refine Conforms.guarded trivial (fun _ => rfl) (done_conforms _) fun reply => ?_
    cases reply with
    | mk ok flash =>
      cases ok with
      | false => rfl
      | true => exact ih flash
  | case3 => rfl

theorem appendProgram_conforms (s : FlashLogStorage) (data : List UInt8) : Conforms sharedBus none (s.appendProgram data) := by
  rw [appendProgram]
  split
  · rfl
  · split
    · rfl
    · split
      · rfl
      · dsimp only
        split
        · rfl
        · refine (beginSectorProgram_conforms s _).bind fun begun => ?_
          match begun with
          | (false, _) => rfl
          | (true, t) =>
            refine (programPagesProgram_conforms t _ _ data).bind fun pages => ?_
            match pages with
            | (none, _) => rfl
            | (some last, t) =>
              dsimp only
              split <;> rfl

theorem eraseSectorsProgram_conforms (s : FlashLogStorage) (endAddr addr : Nat) :
    Conforms sharedBus none (s.eraseSectorsProgram endAddr addr) := by
  fun_induction eraseSectorsProgram s endAddr addr with
  | case1 s addr more ih =>
    refine Conforms.guarded trivial (fun _ => rfl) (done_conforms _) fun reply => ?_
    cases reply with
    | mk ok flash =>
      cases ok with
      | false => rfl
      | true =>
        simp only [↓reduceIte]
        exact ih flash
  | case2 => rfl

theorem eraseLogAreaProgram_conforms (s : FlashLogStorage) : Conforms sharedBus none s.eraseLogAreaProgram := by
  rw [eraseLogAreaProgram]
  split
  · rfl
  · split
    · rfl
    · refine (eraseSectorsProgram_conforms _ _ _).bind fun erased => ?_
      match erased with
      | (false, _) => rfl
      | (true, _) => rfl

end FlashLogStorage

theorem IoCall.conforms (call : IoCall) : Conforms sharedBus none call.program := by
  cases call with
  | adt7410Init initialized =>
    exact ((AEADT7410.writeReg_conforms rfl _ _).bind fun _ => done_conforms _).bind fun _ => done_conforms _
  | adt7410ReadTemperature initialized =>
    exact ((AEADT7410.readTempRaw_conforms rfl).bind fun _ => done_conforms _).bind fun _ => done_conforms _
  | aqm0802Init => exact (AQM0802.init_conforms rfl).bind fun _ => done_conforms _
  | aqm0802Clear => exact (AQM0802.write_conforms (rfl : aqm0802.i2cMutex = true) _ _).bind fun _ => done_conforms _
  | aqm0802PrintLine row str => exact (AQM0802.printLine_conforms rfl row str).bind fun _ => done_conforms _
  | bme280Init cal => exact (Bme280.BME280.init_conforms rfl).bind fun _ => done_conforms _
  | bme280Read cal => exact (Bme280.BME280.read_conforms rfl).bind fun _ => done_conforms _
  | append s data => exact (s.appendProgram_conforms data).bind fun _ => done_conforms _
  | eraseLogArea s => exact s.eraseLogAreaProgram_conforms.bind fun _ => done_conforms _

end Conforming

section Tasks
variable {ι : Type} [DecidableEq ι] {first s : System ι IoOp IoReply Unit}

/-- Tasks make the calls of the drivers and of the storage, and no others. -/
def OwnCalls (_ : System ι IoOp IoReply Unit) : Action ι IoOp IoReply Unit → Prop
  | .call _ program => ∃ call : IoCall, program = call.program
  | _ => True

omit [DecidableEq ι] in
theorem OwnCalls.conforming {action : Action ι IoOp IoReply Unit} (own : OwnCalls s action) :
    System.Conforming sharedBus s action := by
  cases action with
  | call task program =>
    obtain ⟨call, rfl⟩ := own
    exact call.conforms
  | _ => trivial

/-- In no interleaving of the tasks, whatever fails or times out, do two transfers or flash writes go on at once; a
register is read by the task that has just sent its pointer, with nothing in between; and no call returns with
the mutex. -/
theorem shared_io_exclusive (idle : first.Idle) (reached : Machine.Reach System.step OwnCalls first s) :
    (∀ i j, s.inProgress i = true → s.inProgress j = true → i = j) ∧
      (∀ task value, s.program task = .done value → s.owner ≠ some task) ∧
      ∀ front back i j address bytes ret op reply,
        s.history = front ++ (i, ⟨.i2cWrite address bytes true, ret⟩) :: (j, ⟨op, reply⟩) :: back →
        (ret : Int) = bytes.length → j = i ∧ ∃ length, op = .i2cRead address length := by
  obtain ⟨state, guarded⟩ := System.reach_guarded idle OwnCalls.conforming reached
  obtain ⟨working, returned⟩ := guarded.exclusive
  refine ⟨fun i j one other => ?_, returned, ?_⟩
  · have same := (working i one).1.symm.trans (working j other).1
    exact Option.some.inj same
  · intro front back i j address bytes ret op reply history sent
    have follows := guarded.follows
    rw [history, List.append_cons, List.append_cons] at follows
    obtain ⟨_, front'⟩ := follows.front
    obtain ⟨state, before, allowed, unbroken, -⟩ := front'.last
    obtain ⟨start, -, started, -, after⟩ := before.last
    have free : start = sharedBus.free := by
      cases start with
      | none => rfl
      | some _ => exact started.elim
    have pointed : state = some address := by
      rw [after, free]
      exact (sharedBus_write address bytes true ret).trans (if_pos ⟨rfl, sent⟩)
    subst pointed
    have last : i = j := by
      rcases unbroken with none | last
      · exact absurd none (Option.some_ne_none address)
      · rw [List.getLast?_concat] at last
        exact Option.some.inj last
    cases op with
    | i2cRead reader length =>
      have same : reader = address := allowed
      exact ⟨last.symm, length, by rw [same]⟩
    | _ => exact allowed.elim

/-- The thermometer is being read by one of two tasks. -/
theorem shared_io_exclusive_reading :
    let first : System Bool IoOp IoReply Unit :=
      { owner := none, program := fun _ => .done (), inProgress := fun _ => false, history := [] }
    ∃ s, Machine.Reach System.step OwnCalls first s ∧ s.inProgress true = true ∧
      (∀ i j, s.inProgress i = true → s.inProgress j = true → i = j) ∧
      (∀ task value, s.program task = .done value → s.owner ≠ some task) ∧
      ∀ front back i j address bytes ret op reply,
        s.history = front ++ (i, ⟨.i2cWrite address bytes true, ret⟩) :: (j, ⟨op, reply⟩) :: back →
        (ret : Int) = bytes.length → j = i ∧ ∃ length, op = .i2cRead address length := by
  intro first
  have called : Machine.Reach System.step OwnCalls first (first.proceed true (IoCall.adt7410ReadTemperature true).program) :=
    .step .start (show OwnCalls first (.call true _) from ⟨_, rfl⟩) rfl
  have taken := called.step (show OwnCalls _ (.take true) from trivial) rfl
  have begun := taken.step (show OwnCalls _ (.begin true) from trivial) rfl
  exact ⟨_, begun, rfl, shared_io_exclusive ⟨rfl, fun _ => ⟨(), rfl⟩, fun _ => rfl, rfl⟩ begun⟩

end Tasks

end PicoWLogger
