import PicoWLogger.UartReceive
import PicoWLogger.Proofs.TxRing

/-! Which buffer sizes `init` takes, and for which of them the rings compute modulo their size. -/

namespace PicoWLogger

theorem isPowerOfTwo_iff (x : UInt32) : isPowerOfTwo x = true ↔ ∃ k, x.toNat = 2 ^ k := by
  by_cases zero : x = 0
  · rw [zero]
    refine ⟨nofun, fun ⟨k, power⟩ => absurd power (Nat.ne_of_lt (Nat.two_pow_pos k))⟩
  · have nonzero : x.toNat ≠ 0 := fun same => zero (UInt32.toNat_inj.mp same)
    have below : (x - 1).toNat = x.toNat - 1 :=
      UInt32.toNat_sub_of_le _ _ (UInt32.le_iff_toNat_le.mpr (Nat.one_le_iff_ne_zero.mpr nonzero))
    rw [isPowerOfTwo, Bool.and_eq_true, bne_iff_ne, beq_iff_eq, and_iff_right zero, ← UInt32.toNat_inj, UInt32.toNat_and,
      below]
    exact Nat.and_sub_one_eq_zero_iff_isPowerOfTwo nonzero

theorem ctz_eq {x : UInt32} {k : Nat} (power : x.toNat = 2 ^ k) (most : k ≤ 15) : ctz x = UInt32.ofNat k := by
  have table : ∀ k < 16, ctz (UInt32.ofNat (2 ^ k)) = UInt32.ofNat k := by decide +kernel
  rw [← table k (Nat.lt_succ_of_le most), ← power, UInt32.ofNat_toNat]

namespace UartRx

structure Sized (rx : UartRx) (k : Nat) : Prop where
  power : rx.rxSize.toNat = 2 ^ k
  least : 1 ≤ k
  most : k ≤ 15

namespace Sized
variable {rx : UartRx} {k : Nat} (sized : rx.Sized k)
include sized

theorem two_le : 2 ≤ 2 ^ k := Nat.pow_le_pow_right (by decide : 0 < 2) sized.least

theorem le_max : 2 ^ k ≤ 32768 := Nat.pow_le_pow_right (by decide : 0 < 2) sized.most

theorem pos_toNat : rx.pos.toNat = (rx.channel.writeAddr - rx.rxBuf).toNat % 2 ^ k := by
  have inside : (rx.channel.writeAddr - rx.rxBuf).toNat % 2 ^ k < 2 ^ k := Nat.mod_lt _ (Nat.two_pow_pos k)
  have most := sized.le_max
  rw [pos, UInt32.toNat_toUInt16, RingBuffer.and_mask_toNat sized.power]
  exact Nat.mod_eq_of_lt (by omega)

end Sized

theorem toInt32_ofNat {n : Nat} (small : n < 32768) : (Int16.ofNat n).toInt32 = Int32.ofNat n :=
  Int16.toInt32_ofNat' (by change (n : Int) ≤ 32767; omega)

private theorem toInt16_eq (x : UInt32) : x.toUInt16.toInt16 = Int16.ofNat x.toNat := by
  conv => lhs; rw [← UInt32.ofNat_toNat (x := x)]
  rw [UInt32.toUInt16_ofNat', UInt16.toInt16_ofNat']

theorem Sized.nextReadPos {rx : UartRx} {k n : Nat} (sized : rx.Sized k) (small : n < 32768)
    (place : rx.rxReadPos = Int16.ofNat n) : rx.nextReadPos = Int16.ofNat ((n + 1) % 2 ^ k) := by
  rw [UartRx.nextReadPos, toInt16_eq, RingBuffer.and_mask_toNat sized.power, place, toInt32_ofNat small]
  change Int16.ofNat ((UInt32.ofNat n + 1).toNat % 2 ^ k) = _
  rw [UInt32.toNat_add, UInt32.toNat_ofNat_of_lt' (Nat.lt_trans small (by decide)), UInt32.toNat_one,
    Nat.mod_eq_of_lt (a := n + 1) (by omega)]

end UartRx

namespace UartObject

/-- Every update of an index and the free space are those of a ring of the size. -/
structure Exact (o : UartObject) : Prop where
  head (u : UartDma) (b : UInt8) : u.txSize = o.tx.txSize → u.txHead.toNat < u.size →
    (u.pushByteLocked b).txHead.toNat = (u.txHead.toNat + 1) % u.size
  tail (u : UartDma) : u.txSize = o.tx.txSize → u.txTail.toNat < u.size →
    u.dmaIrqHandler.txTail.toNat = (u.txTail.toNat + u.txDmaActiveCount.toNat) % u.size
  free (u : UartDma) : u.txSize = o.tx.txSize → u.txHead.toNat < u.size → u.txTail.toNat < u.size →
    u.txFreeSpaceLocked.toNat = u.size - 1 - u.held
  read (rx : UartRx) : rx.rxSize = o.rxSize → 0 ≤ rx.rxReadPos.toInt → rx.rxReadPos.toInt < rx.rxSize.toNat →
    rx.nextReadPos.toInt = (rx.rxReadPos.toInt + 1) % rx.rxSize.toNat
  write (rx : UartRx) : rx.rxSize = o.rxSize →
    rx.pos.toNat = (rx.channel.writeAddr - rx.rxBuf).toNat % rx.rxSize.toNat

/-- Both channels are configured, the receive channel for a ring of the size. -/
def Configured (o : UartObject) : Prop :=
  o.txChannel.isSome = true ∧ ∃ channel, o.rxChannel = some channel ∧ 2 ^ channel.config.ringBits.toNat = o.rxSize.toNat

/-- What the result `true` of `init` should mean. -/
def InitSound (o : UartObject) : Prop := o.init.1 = true → o.init.2.Configured ∧ o.init.2.Exact

def Accepts (txSize rxSize : UInt32) : Prop :=
  (∃ k, rxSize.toNat = 2 ^ k ∧ 1 ≤ k ∧ k ≤ 15) ∧ ∃ k, txSize.toNat = 2 ^ k

/-- The sizes for which the rings compute modulo the size. -/
def ExactFor (txSize rxSize : UInt32) : Prop :=
  (∃ k, rxSize.toNat = 2 ^ k ∧ 1 ≤ k ∧ k ≤ 15) ∧ ∃ j, txSize.toNat = 2 ^ j ∧ j ≤ 16

/-- The store of the pointer `raw` in front of the aligned address faults, as it does for size 0. -/
def StoreFaults (storable : UInt32 → Bool) (raw size : UInt32) : Prop :=
  raw ≠ 0 ∧ storable (alignedAddress raw size - 4) = false

theorem accepts_iff (txSize rxSize : UInt32) :
    (rxSize < 2 || rxSize > 32768 || !isPowerOfTwo rxSize || !isPowerOfTwo txSize) = false ↔ Accepts txSize rxSize := by
  rw [Accepts, ← isPowerOfTwo_iff]
  simp only [Bool.or_eq_false_iff, decide_eq_false_iff_not, Bool.not_eq_false', UInt32.not_lt, UInt32.le_iff_toNat_le,
    gt_iff_lt, isPowerOfTwo_iff rxSize]
  refine and_congr_left fun _ => ⟨?_, ?_⟩
  · rintro ⟨⟨least, most⟩, k, power⟩
    rw [power] at least most
    exact ⟨k, power, (Nat.pow_le_pow_iff_right (by decide : 1 < 2)).mp (show 2 ^ 1 ≤ 2 ^ k from least),
      (Nat.pow_le_pow_iff_right (by decide : 1 < 2)).mp (show 2 ^ k ≤ 2 ^ 15 from most)⟩
  · rintro ⟨k, power, least, most⟩
    rw [power]
    exact ⟨⟨Nat.pow_le_pow_right (by decide : 0 < 2) least, Nat.pow_le_pow_right (by decide : 0 < 2) most⟩, k, rfl⟩

section
variable (txSize rxSize rxBuf : UInt32) (txBuf : Nat → UInt8) (chunkMax : UInt32)

def opened (k : Nat) : UartObject :=
  { fresh txSize rxSize rxBuf txBuf chunkMax with
    tx := UartDma.new txSize txBuf
    inited := true
    rxChannel := some
      { config := { readIncrement := false, writeIncrement := true, ringBits := UInt32.ofNat k }
        writeAddr := rxBuf
        transCount := 0xffffffff }
    txChannel := some { readIncrement := true, writeIncrement := false, ringBits := 0 } }

variable {txSize rxSize}

theorem init_opened {k j : Nat} (power : rxSize.toNat = 2 ^ k) (least : 1 ≤ k) (most : k ≤ 15)
    (txPower : txSize.toNat = 2 ^ j) :
    (fresh txSize rxSize rxBuf txBuf chunkMax).init = (true, opened txSize rxSize rxBuf txBuf chunkMax k) := by
  have taken := (accepts_iff txSize rxSize).mpr ⟨⟨k, power, least, most⟩, j, txPower⟩
  have bits := ctz_eq power most
  rw [init]
  change (if (rxSize < 2 || rxSize > 32768 || !isPowerOfTwo rxSize || !isPowerOfTwo txSize) = true then _ else _) = _
  rw [taken, if_neg Bool.false_ne_true, opened, ← bits]
  rfl

theorem init_refused (refused : ¬ Accepts txSize rxSize) :
    (fresh txSize rxSize rxBuf txBuf chunkMax).init = (true, fresh txSize rxSize rxBuf txBuf chunkMax) := by
  have taken := mt (accepts_iff txSize rxSize).mp refused
  rw [init]
  change (if (rxSize < 2 || rxSize > 32768 || !isPowerOfTwo rxSize || !isPowerOfTwo txSize) = true then _ else _) = _
  rw [if_pos ((Bool.not_eq_false _).mp taken)]

private theorem txTail_start (u : UartDma) : u.startTxDmaIfNeededIsr.txTail = u.txTail := by
  rw [UartDma.startTxDmaIfNeededIsr]
  split
  · rfl
  · split <;> rfl

theorem exact_opened {k j : Nat} (power : rxSize.toNat = 2 ^ k) (least : 1 ≤ k) (most : k ≤ 15)
    (txPower : txSize.toNat = 2 ^ j) (reach : j ≤ 16) : Exact (opened txSize rxSize rxBuf txBuf chunkMax k) := by
  have powers (u : UartDma) (same : u.txSize = txSize) : ∃ j, u.size = 2 ^ j := ⟨j, by rw [UartDma.size, same, txPower]⟩
  have fits (u : UartDma) (same : u.txSize = txSize) : u.size ≤ 65536 := by
    rw [UartDma.size, same, txPower]
    exact Nat.pow_le_pow_right (by decide : 0 < 2) reach
  have sized (rx : UartRx) (same : rx.rxSize = rxSize) : rx.Sized k := ⟨by rw [same, power], least, most⟩
  refine ⟨fun u b same _ => ?_, fun u same inside => ?_, fun u same => ?_, fun rx same low high => ?_, fun rx same => ?_⟩
  · exact UartDma.advanced_toNat (powers u same) (fits u same) u.txHead 1
  · rw [UartDma.dmaIrqHandler, txTail_start]
    split
    · exact UartDma.advanced_toNat (powers u same) (fits u same) u.txTail u.txDmaActiveCount
    next idle =>
      rw [not_ne_iff.mp idle]
      exact (Nat.mod_eq_of_lt inside).symm
  · exact UartDma.free_toNat (powers u same) (fits u same)
  · obtain ⟨n, place⟩ := Int.eq_ofNat_of_zero_le low
    have max := (sized rx same).le_max
    have size := (sized rx same).power
    have inside : (n + 1) % 2 ^ k < 2 ^ k := Nat.mod_lt _ (Nat.two_pow_pos k)
    have position : rx.rxReadPos = Int16.ofNat n :=
      Int16.toInt.inj (by rw [place, Int16.toInt_ofNat_of_lt (by omega)])
    rw [(sized rx same).nextReadPos (by omega) position, Int16.toInt_ofNat_of_lt (by omega), place, size, Int.natCast_mod]
    rfl
  · rw [(sized rx same).pos_toNat, (sized rx same).power]

end

/-- The result of `init` means what it should just when the receive size is a power of two from 2
to 32768 and the transmit size one up to 65536. -/
theorem fresh_sound_iff (txSize rxSize rxBuf : UInt32) (txBuf : Nat → UInt8) (chunkMax : UInt32) :
    (fresh txSize rxSize rxBuf txBuf chunkMax).InitSound ↔ ExactFor txSize rxSize := by
  constructor
  · intro sound
    by_cases accepted : Accepts txSize rxSize
    · obtain ⟨⟨k, power, least, most⟩, j, txPower⟩ := accepted
      refine ⟨⟨k, power, least, most⟩, j, txPower, ?_⟩
      rw [InitSound, init_opened _ _ _ power least most txPower] at sound
      -- The free space of an empty ring is all but one of its bytes, which must fit 16 bits.
      have size : (UartDma.new txSize txBuf).size = 2 ^ j := txPower
      have positive : 0 < 2 ^ j := Nat.two_pow_pos j
      have free := (sound rfl).2.free (UartDma.new txSize txBuf) rfl (by rw [size]; exact positive) (by rw [size]; exact positive)
      have none' : (UartDma.new txSize txBuf).held = 0 :=
        (RingBuffer.held_eq_zero (by rw [size]; exact positive) (by rw [size]; exact positive)).mpr rfl
      have short := (UartDma.new txSize txBuf).txFreeSpaceLocked.toNat_lt
      rw [free, none', size] at short
      exact (Nat.pow_le_pow_iff_right (by decide : 1 < 2)).mp (show 2 ^ j ≤ 2 ^ 16 by omega)
    · rw [InitSound, init_refused _ _ _ accepted] at sound
      obtain ⟨_, none', _⟩ := (sound rfl).1.2
      cases none'
  · rintro ⟨⟨k, power, least, most⟩, j, txPower, reach⟩
    rw [InitSound, init_opened _ _ _ power least most txPower]
    refine fun _ => ⟨⟨rfl, _, rfl, ?_⟩, exact_opened _ _ _ power least most txPower reach⟩
    change 2 ^ (UInt32.ofNat k).toNat = rxSize.toNat
    rw [UInt32.toNat_ofNat_of_lt' (by change k < 4294967296; omega), power]

section
variable {storable : UInt32 → Bool} {txSize rxSize rxRaw txRaw chunkMax raw size : UInt32} {txBuf : Nat → UInt8}

theorem alignedAllocForDma_faults : alignedAllocForDma storable raw size = none ↔ StoreFaults storable raw size := by
  rw [alignedAllocForDma, StoreFaults]
  by_cases missing : raw = 0
  · simp [missing]
  · simp [missing]

theorem new_eq : new storable txSize rxSize rxRaw txRaw txBuf chunkMax = none ∧
      (StoreFaults storable rxRaw rxSize ∨ StoreFaults storable txRaw txSize) ∨
    ∃ rxBuf, alignedAllocForDma storable rxRaw rxSize = some rxBuf ∧
      new storable txSize rxSize rxRaw txRaw txBuf chunkMax = some (fresh txSize rxSize rxBuf txBuf chunkMax) ∧
      ¬ StoreFaults storable rxRaw rxSize ∧ ¬ StoreFaults storable txRaw txSize := by
  rw [← alignedAllocForDma_faults, ← alignedAllocForDma_faults, new]
  cases alignedAllocForDma storable rxRaw rxSize with
  | none => exact .inl ⟨rfl, .inl rfl⟩
  | some rxBuf =>
    cases alignedAllocForDma storable txRaw txSize with
    | none => exact .inl ⟨rfl, .inr rfl⟩
    | some _ => exact .inr ⟨rxBuf, rfl, rfl, nofun, nofun⟩

end

/-- The result of `init` means what it should just when the constructor faults, so that there is no object, or the
rings are exact for the sizes. -/
theorem init_sound_iff (storable : UInt32 → Bool) (txSize rxSize rxRaw txRaw : UInt32) (txBuf : Nat → UInt8) (chunkMax : UInt32) :
    (∀ o, new storable txSize rxSize rxRaw txRaw txBuf chunkMax = some o → o.InitSound) ↔
      StoreFaults storable rxRaw rxSize ∨ StoreFaults storable txRaw txSize ∨
        (∃ k, rxSize.toNat = 2 ^ k ∧ 1 ≤ k ∧ k ≤ 15) ∧ ∃ j, txSize.toNat = 2 ^ j ∧ j ≤ 16 := by
  obtain ⟨none', faults⟩ | ⟨rxBuf, -, made, rxStored, txStored⟩ :=
    @new_eq storable txSize rxSize rxRaw txRaw chunkMax txBuf
  · rw [none', ← or_assoc]
    refine iff_of_true (fun o same => ?_) (.inl faults)
    cases same
  · rw [made, or_iff_right rxStored, or_iff_right txStored]
    refine Iff.trans ?_ (fresh_sound_iff txSize rxSize rxBuf txBuf chunkMax)
    exact ⟨fun sound => sound _ rfl, fun sound o same => Option.some.inj same ▸ sound⟩

section Block
variable {raw size : UInt32} (sized : 0 < size.toNat) (block : raw.toNat + (2 * size.toNat + 3) ≤ 2 ^ 32)
include sized block

/-- In a block of `malloc` whose length was computed without wrapping the pointer is stored inside the block. -/
theorem store_inside : raw.toNat ≤ (alignedAddress raw size - 4).toNat ∧
    (alignedAddress raw size - 4).toNat + 4 ≤ raw.toNat + (size.toNat + 3) := by
  have mask : (size - 1).toNat = size.toNat - 1 := UInt32.toNat_sub_of_le _ _ (UInt32.le_iff_toNat_le.mpr sized)
  have sum : (raw + 4 + (size - 1)).toNat = raw.toNat + 4 + (size.toNat - 1) := by
    rw [UInt32.toNat_add, UInt32.toNat_add, mask]
    change ((raw.toNat + 4) % 2 ^ 32 + _) % 2 ^ 32 = _
    omega
  have low : ((raw + 4 + (size - 1)) &&& (size - 1)).toNat ≤ size.toNat - 1 := by
    rw [UInt32.toNat_and, mask]
    exact Nat.and_le_right
  have place : (alignedAddress raw size).toNat =
      raw.toNat + 4 + (size.toNat - 1) - ((raw + 4 + (size - 1)) &&& (size - 1)).toNat := by
    rw [alignedAddress, RingBuffer.and_not_toNat, sum]
  have store : (alignedAddress raw size - 4).toNat = (alignedAddress raw size).toNat - 4 :=
    UInt32.toNat_sub_of_le _ _ (UInt32.le_iff_toNat_le.mpr (by rw [place]; change 4 ≤ _; omega))
  rw [store, place]
  omega

/-- So a constructor whose blocks lie in memory does not fault. -/
theorem not_storeFaults {storable : UInt32 → Bool} (memory : ∀ addr : UInt32, raw.toNat ≤ addr.toNat →
    addr.toNat + 4 ≤ raw.toNat + (size.toNat + 3) → storable addr = true) : ¬ StoreFaults storable raw size := by
  rintro ⟨-, refused⟩
  obtain ⟨above, below⟩ := store_inside sized block
  rw [memory _ above below] at refused
  cases refused

end Block

/-- Size 0 faults wherever the last word of the address space takes no store. -/
theorem storeFaults_zero {storable : UInt32 → Bool} (top : storable 0xFFFFFFFC = false) {raw : UInt32} (found : raw ≠ 0) :
    StoreFaults storable raw 0 := by
  refine ⟨found, ?_⟩
  have masked : alignedAddress raw 0 - 4 = 0xFFFFFFFC := by
    have all : ~~~((0 : UInt32) - 1) = 0 := by decide
    rw [alignedAddress, all, UInt32.and_zero]
    rfl
  rw [masked]
  exact top

/-- The words that the microcontroller stores to: its 264 KiB of memory. -/
def sram (addr : UInt32) : Bool := 0x20000000 ≤ addr && addr < 0x20042000

/-- `init` returns true for a transmit buffer of 3 bytes, for which it configures nothing, and for one of
131072 bytes, whose free space is cut to 16 bits. -/
theorem init_unsound :
    (∃ o, new sram 3 4096 0x20001000 0x20004000 (fun _ => 0) 0 = some o ∧
      o.init.1 = true ∧ o.init.2.rxChannel = none ∧ ¬ o.InitSound) ∧
    (∃ o, new sram 131072 4096 0x20000400 0x20003000 (fun _ => 0) 0 = some o ∧
      o.init.1 = true ∧ o.init.2.tx.txFreeSpaceLocked = 65535 ∧ ¬ o.InitSound) := by
  refine ⟨⟨fresh 3 4096 0x20002000 (fun _ => 0) 0, rfl, by decide, by decide, fun sound => ?_⟩,
    fresh 131072 4096 0x20001000 (fun _ => 0) 0, rfl, by decide, by decide, fun sound => ?_⟩
  · obtain ⟨_, none', _⟩ := (sound (by decide)).1.2
    cases none'
  · have free := (sound (by decide)).2.free (UartDma.new 131072 fun _ => 0) rfl (by decide) (by decide)
    exact absurd free (by decide)

end UartObject

end PicoWLogger
