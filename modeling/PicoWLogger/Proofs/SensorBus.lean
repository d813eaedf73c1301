import PicoWLogger.SensorBus

/-! What the drivers of the sensors find on their bus. -/

namespace PicoWLogger
open SharedLock

namespace SensorBus

structure Later (bus later : SensorBus) (k : Nat) : Prop where
  registers : ∀ n, later.registers n = bus.registers (n + k)
  transfers : ∀ n, later.transfers n = bus.transfers (n + k)

theorem Later.burst {bus later : SensorBus} {k : Nat} (shifted : bus.Later later k) (n : Nat) (start : UInt8) (length : Nat) :
    later.burst n start length = bus.burst (n + k) start length := by
  rw [SensorBus.burst, SensorBus.burst, shifted.registers]

/-- What so many attempts at a burst find: the registers at one of the transfers, or each attempt lost a transfer. -/
def Reads (bus : SensorBus) (start : UInt8) (length attempts : Nat) : Option (Vector UInt8 length) → Prop
  | some bytes => ∃ n < 2 * attempts, bus.transfers n = .sent ∧ bytes = bus.burst n start length
  | none => attempts ≤ (List.range (2 * attempts)).countP fun n => bus.transfers n ≠ .sent

theorem Later.reads {bus later : SensorBus} (shifted : bus.Later later 1) {start : UInt8} {length attempts : Nat}
    {bytes : Option (Vector UInt8 length)} (reads : later.Reads start length attempts bytes) :
    bus.next.Reads start length attempts bytes := by
  have transfers : later.transfers = bus.next.transfers := funext shifted.transfers
  cases bytes with
  | none =>
    rw [Reads, transfers] at reads
    exact reads
  | some bytes =>
    obtain ⟨n, early, sent, same⟩ := reads
    rw [transfers] at sent
    rw [shifted.burst] at same
    exact ⟨n, early, sent, same⟩

/-- A transfer that was lost before counts besides the later ones. -/
theorem Later.lost {bus later : SensorBus} {k : Nat} (shifted : bus.Later later k)
    (missed : ∃ i < k, bus.transfers i ≠ .sent) (n : Nat) :
    (List.range n).countP (fun i => later.transfers i ≠ .sent) + 1 ≤
      (List.range (k + n)).countP (fun i => bus.transfers i ≠ .sent) := by
  obtain ⟨i, early, lost⟩ := missed
  have here : 0 < (List.range k).countP fun i => bus.transfers i ≠ .sent :=
    List.countP_pos_iff.mpr ⟨i, List.mem_range.mpr early, decide_eq_true lost⟩
  have same : (List.range n).countP (fun i => later.transfers i ≠ .sent) =
      ((List.range n).map (k + ·)).countP fun i => bus.transfers i ≠ .sent := by
    rw [List.countP_map]
    congr 1
    funext i
    simp only [Function.comp, shifted.transfers, Nat.add_comm]
  rw [List.range_add, List.countP_append, same]
  omega

section Driver
variable (bus : SensorBus) {α β : Type}

/-- A write of a register takes one transfer. -/
theorem write_run (address : UInt8) (bytes : List UInt8) :
    ∃ later, bus.Later later 1 ∧
      (lockI2c true fun got =>
        if got then
          .perform (.i2cWrite address bytes false) fun (ret : Int) => unlockI2c true (.done (ret = bytes.length))
        else .done false : IoProgram Bool).run take perform bus = (decide (bus.transfers 0 = .sent), later) := by
  have other : ¬ (-1 : Int) = bytes.length := by omega
  have one : bus.Later bus.next 1 := ⟨fun _ => rfl, fun _ => rfl⟩
  cases first : bus.transfers 0 with
  | locked =>
    refine ⟨bus.next, one, ?_⟩
    simp [Program.run, lockI2c, take, first]
  | failed =>
    refine ⟨bus.next, one, ?_⟩
    simp [Program.run, lockI2c, unlockI2c, take, perform, first, other]
  | sent =>
    refine ⟨{ bus.next with pointer := bytes.headD 0 }, ⟨fun _ => rfl, fun _ => rfl⟩, ?_⟩
    simp [Program.run, lockI2c, unlockI2c, take, perform, first]

/-- What a read of registers comes to: it takes two transfers, or ends with the first one that is lost. -/
inductive Bursts (program : IoProgram (Option α)) (start : UInt8) {length : Nat} (found : Vector UInt8 length → α) :
    Prop where
  | found {later} (shifted : bus.Later later 2) (sent : ∀ i < 2, bus.transfers i = .sent)
      (ran : program.run take perform bus = (some (found (bus.burst 1 start length)), later))
  | lost {later k} (shifted : bus.Later later k) (few : k ≤ 2) (lost : ∃ i < k, bus.transfers i ≠ .sent)
      (ran : program.run take perform bus = (none, later))

variable {bus}

theorem Bursts.map {program : IoProgram (Option α)} {start : UInt8} {length : Nat} {found : Vector UInt8 length → α}
    (bursts : bus.Bursts program start found) (f : α → β) :
    bus.Bursts (program.bind fun value => .done (value.map f)) start (f ∘ found) := by
  cases bursts with
  | found shifted sent ran =>
    refine .found shifted sent ?_
    rw [Program.run_bind, ran]
    rfl
  | lost shifted few lost ran =>
    refine .lost shifted few lost ?_
    rw [Program.run_bind, ran]
    rfl

theorem bursts (bus : SensorBus) (address start : UInt8) {length : Nat} (found : Vector UInt8 length → α) :
    bus.Bursts
      (lockI2c true fun got =>
        if got then
          .perform (.i2cWrite address [start] true) fun (ret : Int) =>
            if ret ≠ 1 then unlockI2c true (.done none)
            else
              .perform (.i2cRead address length) fun (ret, buffer) =>
                unlockI2c true (.done (if ret ≠ length then none else some (found buffer)))
        else .done none)
      start found := by
  have other : ¬ (-1 : Int) = length := by omega
  have one : bus.Later bus.next 1 := ⟨fun _ => rfl, fun _ => rfl⟩
  cases first : bus.transfers 0 with
  | locked =>
    refine .lost one (by decide) ⟨0, by decide, by simp [first]⟩ ?_
    simp [Program.run, lockI2c, take, first]
  | failed =>
    refine .lost one (by decide) ⟨0, by decide, by simp [first]⟩ ?_
    simp [Program.run, lockI2c, unlockI2c, take, perform, first]
  | sent =>
    have moved : bus.next.transfers 0 = bus.transfers 1 := rfl
    have shifted : bus.Later { bus.next.next with pointer := start } 2 := ⟨fun _ => rfl, fun _ => rfl⟩
    cases second : bus.transfers 1 with
    | sent =>
      refine .found shifted (fun i inside => ?_) ?_
      · obtain rfl | rfl : i = 0 ∨ i = 1 := by omega
        · exact first
        · exact second
      · simp [Program.run, lockI2c, unlockI2c, take, perform, first, moved, second]
        exact ⟨rfl, rfl⟩
    | locked | failed =>
      refine .lost shifted (by decide) ⟨1, by decide, by simp [second]⟩ ?_
      simp [Program.run, lockI2c, unlockI2c, take, perform, first, moved, second, other]
      rfl

/-- What attempts come to, by induction on how many are left. -/
theorem reads_retry {attempt : IoProgram (Option α)} {start : UInt8} {length : Nat} (f : Vector UInt8 length → α)
    (each : ∀ bus : SensorBus, bus.Bursts attempt start f) (attempts : Nat) (bus : SensorBus) :
    ∃ bytes, bus.Reads start length attempts bytes ∧
      bus.result (readWithRetry attempt attempts) = bytes.map f := by
  induction attempts generalizing bus with
  | zero => exact ⟨none, Nat.zero_le _, rfl⟩
  | succ attempts ih =>
    cases each bus with
    | found shifted sent ran =>
      refine ⟨some (bus.burst 1 start length), ⟨1, by omega, sent 1 (by decide), rfl⟩, ?_⟩
      rw [result, readWithRetry, Program.run_bind, ran]
      rfl
    | @lost later k shifted few lost ran =>
      obtain ⟨bytes, reads, rest⟩ := ih later
      refine ⟨bytes, ?_, ?_⟩
      · cases bytes with
        | none =>
          have more := shifted.lost lost (2 * attempts)
          have wider : List.Sublist (List.range (k + 2 * attempts)) (List.range (2 * (attempts + 1))) :=
            List.range_sublist.mpr (by omega)
          exact (Nat.add_le_add_right reads 1).trans (more.trans (List.Sublist.countP_le wider))
        | some bytes =>
          obtain ⟨n, early, sent, rfl⟩ := reads
          rw [shifted.transfers] at sent
          exact ⟨n + k, by omega, sent, shifted.burst n start length⟩
      · rw [result, readWithRetry, Program.run_bind, ran]
        exact rest

end Driver

end SensorBus

end PicoWLogger
