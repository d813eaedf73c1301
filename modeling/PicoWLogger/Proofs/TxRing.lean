import PicoWLogger.UartCalls
import PicoWLogger.Lib.RingBuffer
import Mathlib.Tactic.Set

/-! The transmit ring under every schedule of calls, DMA moves and completion interrupts:
the channel sends the accepted bytes in order, and a ring that holds bytes is being sent. -/

namespace PicoWLogger
namespace UartDma

def size (u : UartDma) : Nat := u.txSize.toNat

def held (u : UartDma) : Nat := RingBuffer.held u.size u.txHead.toNat u.txTail.toNat

def queued (u : UartDma) : List UInt8 := RingBuffer.entries u.txBuf u.size u.txTail.toNat u.held

def moved (u : UartDma) : Nat := u.txDmaActiveCount.toNat - u.channel.transCount

/-- A ring whose size is a power of two that the 16-bit indices can address. -/
structure Addressable (u : UartDma) : Prop where
  power : ∃ k, u.size = 2 ^ k
  least : 2 ≤ u.size
  most : u.size ≤ 65536
  head : u.txHead.toNat < u.size
  tail : u.txTail.toNat < u.size

section Masking
variable {u : UartDma} (power : ∃ k, u.size = 2 ^ k) (most : u.size ≤ 65536)
include power most

theorem masked_toNat (index : UInt32) : (u.masked index).toNat = index.toNat % u.size := by
  obtain ⟨k, power⟩ := power
  have bound : index.toNat % u.size < u.size := Nat.mod_lt _ (by rw [power]; exact Nat.two_pow_pos k)
  rw [UartDma.masked, UInt32.toNat_toUInt16, RingBuffer.and_mask_toNat power, ← power]
  exact Nat.mod_eq_of_lt (by omega)

theorem size_dvd : u.size ∣ 4294967296 := by
  obtain ⟨k, power⟩ := power
  rw [power] at most ⊢
  have small : k ≤ 16 := (Nat.pow_le_pow_iff_right (by decide)).mp (Nat.le_trans most (by decide : 65536 ≤ 2 ^ 16))
  exact pow_dvd_pow 2 (Nat.le_trans small (by decide : 16 ≤ 32))

theorem advanced_toNat (index : UInt16) (n : UInt32) :
    (u.masked (index.toUInt32 + n)).toNat = (index.toNat + n.toNat) % u.size := by
  rw [masked_toNat power most, UInt32.toNat_add, UInt16.toNat_toUInt32]
  exact Nat.mod_mod_of_dvd _ (size_dvd power most)

theorem free_toNat (head : u.txHead.toNat < u.size) (tail : u.txTail.toNat < u.size) :
    u.txFreeSpaceLocked.toNat = u.size - 1 - u.held := by
  have whole := size_dvd power most
  rw [held, ← RingBuffer.free_eq head tail, txFreeSpaceLocked, masked_toNat power most, UInt32.toNat_sub, UInt32.toNat_sub,
    UInt16.toNat_toUInt32, UInt16.toNat_toUInt32, UInt32.toNat_one, Nat.mod_mod_of_dvd _ whole, Nat.add_mod,
    Nat.mod_mod_of_dvd _ whole, ← Nat.add_mod]
  -- The two wraps of the subtraction are multiples of the ring size.
  obtain ⟨wraps, same⟩ : ∃ wraps, 4294967296 = u.size * wraps + u.size := by
    obtain ⟨quotient, same⟩ := whole
    cases quotient with
    | zero => omega
    | succ wraps => exact ⟨wraps, same⟩
  rw [show 2 ^ 32 - 1 + (2 ^ 32 - u.txHead.toNat + u.txTail.toNat) =
      u.txTail.toNat + (u.size - 1) + (u.size - u.txHead.toNat) + u.size * (2 * wraps) by
    rw [Nat.mul_left_comm]
    omega, Nat.add_mul_mod_self_left]

end Masking

namespace Addressable
variable {u : UartDma} (ring : u.Addressable)
include ring

theorem held_lt : u.held < u.size := RingBuffer.held_lt _ ring.tail

theorem next : (u.masked (u.txHead.toUInt32 + 1)).toNat = (u.txHead.toNat + 1) % u.size :=
  advanced_toNat ring.power ring.most _ _

theorem free : u.txFreeSpaceLocked.toNat = u.size - 1 - u.held :=
  free_toNat ring.power ring.most ring.head ring.tail

theorem pushByte (room : u.held + 1 < u.size) (b : UInt8) :
    (u.pushByteLocked b).Addressable ∧ (u.pushByteLocked b).held = u.held + 1 ∧
      (u.pushByteLocked b).queued = u.queued ++ [b] := by
  have count : (u.pushByteLocked b).held = u.held + 1 := by
    change RingBuffer.held u.size (u.masked _).toNat u.txTail.toNat = _
    rw [ring.next, RingBuffer.held_push ring.head ring.tail room]
    rfl
  refine ⟨⟨ring.power, ring.least, ring.most, ?_, ring.tail⟩, count, ?_⟩
  · change (u.masked _).toNat < u.size
    rw [ring.next]
    exact Nat.mod_lt _ (Nat.lt_of_le_of_lt (Nat.zero_le _) ring.head)
  · have behind : u.txHead.toNat = (u.txTail.toNat + u.held) % u.size :=
      (RingBuffer.tail_add_held ring.head ring.tail).symm
    rw [queued, count]
    change RingBuffer.entries (Function.update u.txBuf u.txHead.toNat b) u.size u.txTail.toNat (u.held + 1) = _
    rw [behind]
    exact RingBuffer.entries_push b (by omega)

/-- The run of bytes that a transfer may take: not empty unless the ring is, within the
queue and within the buffer. -/
theorem contiguous (some' : u.txHead ≠ u.txTail) :
    0 < u.contiguous.toNat ∧ u.contiguous.toNat ≤ u.held ∧ u.txTail.toNat + u.contiguous.toNat ≤ u.size := by
  have head := ring.head
  have tail := ring.tail
  have different : u.txHead.toNat ≠ u.txTail.toNat := fun same => some' (UInt16.toNat_inj.mp same)
  have total := RingBuffer.held_eq head tail
  change u.held = _ at total
  rw [total, UartDma.contiguous]
  split
  · have above : u.txTail.toNat ≤ u.txHead.toNat := UInt16.le_iff_toNat_le.mp ‹_›
    rw [UInt32.toNat_sub_of_le _ _ (by simpa [UInt32.le_iff_toNat_le] using above), if_pos above]
    simp only [UInt16.toNat_toUInt32]
    omega
  · have above : ¬ u.txTail.toNat ≤ u.txHead.toNat := fun above => ‹¬ _› (UInt16.le_iff_toNat_le.mpr above)
    have fits : u.txTail.toUInt32 ≤ u.txSize := by
      rw [UInt32.le_iff_toNat_le, UInt16.toNat_toUInt32]
      exact Nat.le_of_lt tail
    rw [UInt32.toNat_sub_of_le _ _ fits, if_neg above]
    simp only [UInt16.toNat_toUInt32]
    change 0 < u.size - _ ∧ u.size - _ ≤ _ ∧ _ + (u.size - _) ≤ _
    omega

end Addressable

/-- The running transfer is the last one started, a run of queued bytes from the tail, and
the channel is inside it or about to interrupt. -/
structure Flight (u : UartDma) : Prop where
  started : ∃ earlier, u.channel.started = earlier ++ [(u.txTail.toNat, u.txDmaActiveCount.toNat)]
  some' : 0 < u.txDmaActiveCount.toNat
  queued : u.txDmaActiveCount.toNat ≤ u.held
  inside : u.txTail.toNat + u.txDmaActiveCount.toNat ≤ u.size
  position : u.channel.readAddr + u.channel.transCount = u.txTail.toNat + u.txDmaActiveCount.toNat
  left : u.channel.transCount ≤ u.txDmaActiveCount.toNat
  pending : u.channel.irq = true ↔ u.channel.transCount = 0

structure Idle (u : UartDma) : Prop where
  active : u.txDmaActiveCount = 0
  stopped : u.channel.transCount = 0
  quiet : u.channel.irq = false

/-- The ring after `accepted` was put in: what left it was moved to the wire, in order. -/
structure TxRing (u : UartDma) (txSize : UInt32) (accepted : List UInt8) : Prop where
  fixed : u.txSize = txSize
  ring : u.Addressable
  chunk : u.TX_DMA_CHUNK_MAX = 1024
  channel : if u.txDmaRunning then u.Flight else u.Idle
  runs : ∀ transfer ∈ u.channel.started, 0 < transfer.2 ∧ transfer.1 + transfer.2 ≤ u.size
  history : ∃ done, accepted = done ++ u.queued ∧ u.channel.wire = done ++ u.queued.take u.moved ∧
    (u.channel.started.map Prod.snd).sum = done.length + u.txDmaActiveCount.toNat

def Driven (u : UartDma) : Prop := u.txHead ≠ u.txTail → u.txDmaRunning = true

namespace TxRing
variable {u : UartDma} {txSize : UInt32} {accepted : List UInt8}

/-- Counters and the interrupt enable are no part of the ring. -/
theorem aside (tx : u.TxRing txSize accepted) (interrupts : Bool) (full frames bytes : UInt32) :
    TxRing
      { u with interrupts, txByteFullCount := full, txDropFrameCount := frames, txDropBytesCount := bytes }
      txSize accepted where
  fixed := tx.fixed
  ring := ⟨tx.ring.power, tx.ring.least, tx.ring.most, tx.ring.head, tx.ring.tail⟩
  chunk := tx.chunk
  channel := by
    have channel := tx.channel
    change if u.txDmaRunning then _ else _
    split at channel
    · rw [if_pos ‹_›]
      exact ⟨channel.started, channel.some', channel.queued, channel.inside, channel.position, channel.left,
        channel.pending⟩
    · rw [if_neg ‹_›]
      exact ⟨channel.active, channel.stopped, channel.quiet⟩
  runs := tx.runs
  history := tx.history

theorem flight (tx : u.TxRing txSize accepted) (running : u.txDmaRunning = true) : u.Flight := by
  have channel := tx.channel
  rwa [if_pos running] at channel

theorem idle (tx : u.TxRing txSize accepted) (stopped : u.txDmaRunning = false) : u.Idle := by
  have channel := tx.channel
  rwa [if_neg (by simp [stopped])] at channel

theorem moved_le (tx : u.TxRing txSize accepted) : u.moved ≤ u.held := by
  by_cases running : u.txDmaRunning = true
  · exact Nat.le_trans (Nat.sub_le _ _) (tx.flight running).queued
  · rw [moved, (tx.idle (Bool.eq_false_iff.mpr running)).active]
    exact Nat.le_trans (Nat.sub_le _ _) (Nat.zero_le _)

theorem pushByte (tx : u.TxRing txSize accepted) (room : u.held + 1 < u.size) (b : UInt8) :
    (u.pushByteLocked b).TxRing txSize (accepted ++ [b]) := by
  obtain ⟨ring, count, queue⟩ := tx.ring.pushByte room b
  obtain ⟨done, put, sent, total⟩ := tx.history
  refine ⟨tx.fixed, ring, tx.chunk, ?_, tx.runs, done, ?_, ?_, total⟩
  · have channel := tx.channel
    change if u.txDmaRunning then _ else _
    split at channel
    · rw [if_pos ‹_›]
      exact ⟨channel.started, channel.some', by rw [count]; exact Nat.le_succ_of_le channel.queued, channel.inside,
        channel.position, channel.left, channel.pending⟩
    · rw [if_neg ‹_›]
      exact ⟨channel.active, channel.stopped, channel.quiet⟩
  · rw [put, queue, List.append_assoc]
  · change u.channel.wire = done ++ (u.pushByteLocked b).queued.take u.moved
    rw [queue, List.take_append_of_le_length (by simpa [queued] using tx.moved_le)]
    exact sent

theorem pushBytes (tx : u.TxRing txSize accepted) (data : List UInt8) (room : u.held + data.length < u.size) :
    (u.pushBytesLocked data).TxRing txSize (accepted ++ data) := by
  induction data generalizing u accepted with
  | nil => simpa [pushBytesLocked] using tx
  | cons b rest ih =>
    rw [List.length_cons] at room
    have first := tx.pushByte (by omega) b
    have count := (tx.ring.pushByte (by omega) b).2.1
    have later := ih first (by rw [count]; change _ < u.size; omega)
    rwa [List.append_assoc] at later

theorem launch (tx : u.TxRing txSize accepted) (stopped : u.txDmaRunning = false) (some' : u.txHead ≠ u.txTail) :
    (u.launch u.contiguous).TxRing txSize accepted := by
  obtain ⟨positive, queued, inside⟩ := tx.ring.contiguous some'
  obtain ⟨done, put, sent, total⟩ := tx.history
  have idle := tx.idle stopped
  obtain ⟨count, isCount⟩ : ∃ count, (u.launch u.contiguous).txDmaActiveCount = count := ⟨_, rfl⟩
  have bounds : 0 < count.toNat ∧ count.toNat ≤ u.held ∧ u.txTail.toNat + count.toNat ≤ u.size := by
    rw [← isCount, UartDma.launch, tx.chunk]
    dsimp only
    split
    · have more : (1024 : UInt32).toNat < u.contiguous.toNat := UInt32.lt_iff_toNat_lt.mp ‹_›
      have limit : (1024 : UInt32).toNat = 1024 := rfl
      omega
    · exact ⟨positive, queued, inside⟩
  have launched : u.launch u.contiguous =
      { u with
        txDmaRunning := true
        txDmaActiveCount := count
        channel := u.channel.start u.txTail.toNat count.toNat } := by
    rw [← isCount]
    rfl
  rw [launched]
  refine ⟨tx.fixed, ⟨tx.ring.power, tx.ring.least, tx.ring.most, tx.ring.head, tx.ring.tail⟩, tx.chunk, ?_, ?_, done,
    put, ?_, ?_⟩
  · rw [if_pos rfl]
    exact ⟨⟨_, rfl⟩, bounds.1, bounds.2.1, bounds.2.2, rfl, Nat.le_refl _, by
      change u.channel.irq = true ↔ count.toNat = 0
      rw [idle.quiet]
      exact ⟨nofun, fun none' => absurd none' (Nat.ne_of_gt bounds.1)⟩⟩
  · intro transfer member
    rcases List.mem_append.mp member with old | new
    · exact tx.runs transfer old
    · rw [List.mem_singleton.mp new]
      exact ⟨bounds.1, bounds.2.2⟩
  · change u.channel.wire = done ++ u.queued.take (count.toNat - count.toNat)
    rw [moved, idle.active] at sent
    simpa using sent
  · change ((u.channel.started ++ [_]).map Prod.snd).sum = _
    rw [idle.active] at total
    simpa using total

theorem start (tx : u.TxRing txSize accepted) : u.startTxDmaLocked.TxRing txSize accepted ∧ u.startTxDmaLocked.Driven := by
  by_cases running : u.txDmaRunning = true
  · rw [startTxDmaLocked, if_pos (by simp [running])]
    exact ⟨tx, fun _ => running⟩
  · by_cases empty : u.txTail = u.txHead
    · rw [startTxDmaLocked, if_pos (by simp [empty])]
      exact ⟨tx, fun some' => absurd empty.symm some'⟩
    · rw [startTxDmaLocked, if_neg (by simp [running, empty])]
      exact ⟨tx.launch (Bool.eq_false_iff.mpr running) (Ne.symm empty), fun _ => rfl⟩

/-- The zero count that the other two starters test for does not come up. -/
theorem startIsr_eq (tx : u.TxRing txSize accepted) : u.startTxDmaIfNeededIsr = u.startTxDmaLocked := by
  rw [startTxDmaIfNeededIsr, startTxDmaLocked]
  split
  · rfl
  · have some' : u.txHead ≠ u.txTail := by
      intro same
      simp_all
    have positive := (tx.ring.contiguous some').1
    rw [if_neg (by rintro zero; rw [zero] at positive; exact absurd positive (by decide))]

/-- The completion interrupt takes the sent bytes off the ring and starts the next run. -/
theorem interrupt (tx : u.TxRing txSize accepted) (pending : u.channel.irq = true) :
    u.dmaIrqTrampoline.TxRing txSize accepted ∧ u.dmaIrqTrampoline.Driven := by
  have running : u.txDmaRunning = true := by
    by_contra stopped
    rw [(tx.idle (Bool.eq_false_iff.mpr stopped)).quiet] at pending
    exact absurd pending (by decide)
  have flight := tx.flight running
  have finished := flight.pending.mp pending
  obtain ⟨done, put, sent, total⟩ := tx.history
  obtain ⟨freed, isFreed⟩ : ∃ freed : UartDma, freed =
      { u with
        txTail := u.masked (u.txTail.toUInt32 + u.txDmaActiveCount)
        txDmaActiveCount := 0
        txDmaRunning := false
        channel := { u.channel with irq := false } } := ⟨_, rfl⟩
  have some' : u.txDmaActiveCount ≠ 0 := fun zero => absurd flight.some' (by rw [zero]; decide)
  have handler : u.dmaIrqTrampoline = freed.startTxDmaIfNeededIsr := by
    rw [isFreed, dmaIrqTrampoline, dmaIrqHandler]
    dsimp only
    rw [if_pos some']
    rfl
  have tail : freed.txTail.toNat = (u.txTail.toNat + u.txDmaActiveCount.toNat) % u.size := by
    rw [isFreed]
    change (u.masked _).toNat = _
    exact advanced_toNat tx.ring.power tx.ring.most _ _
  have size : freed.size = u.size := by rw [isFreed]; rfl
  have held : freed.held = u.held - u.txDmaActiveCount.toNat := by
    rw [UartDma.held, tail, size]
    rw [isFreed]
    exact RingBuffer.held_pop tx.ring.head tx.ring.tail flight.queued
  have queue : freed.queued = u.queued.drop u.txDmaActiveCount.toNat := by
    rw [UartDma.queued, held, tail, size]
    rw [isFreed]
    exact RingBuffer.entries_drop
  have stopped : freed.txDmaRunning = false := by rw [isFreed]
  have free : freed.TxRing txSize accepted := by
    refine ⟨?_, ⟨?_, ?_, ?_, ?_, ?_⟩, ?_, ?_, ?_, done ++ u.queued.take u.txDmaActiveCount.toNat, ?_, ?_, ?_⟩
    · rw [isFreed]; exact tx.fixed
    · rw [size]; exact tx.ring.power
    · rw [size]; exact tx.ring.least
    · rw [size]; exact tx.ring.most
    · rw [size, isFreed]; exact tx.ring.head
    · rw [size, tail]; exact Nat.mod_lt _ (Nat.lt_of_le_of_lt (Nat.zero_le _) tx.ring.tail)
    · rw [isFreed]; exact tx.chunk
    · rw [if_neg (by simp [stopped]), isFreed]
      exact ⟨rfl, finished, rfl⟩
    · rw [size, isFreed]; exact tx.runs
    · rw [queue, List.append_assoc, List.take_append_drop]
      exact put
    · have all : u.moved = u.txDmaActiveCount.toNat := by rw [moved, finished, Nat.sub_zero]
      have none' : freed.moved = 0 := by rw [isFreed, moved]; exact Nat.zero_sub _
      rw [all] at sent
      rw [none', List.take_zero, List.append_nil, ← sent, isFreed]
    · have part : (u.queued.take u.txDmaActiveCount.toNat).length = u.txDmaActiveCount.toNat := by
        rw [List.length_take, queued, RingBuffer.length_entries]
        exact Nat.min_eq_left flight.queued
      rw [isFreed, List.length_append, part]
      exact total
  rw [handler, free.startIsr_eq]
  exact free.start

/-- The byte the channel reads is the next one of the accepted bytes. -/
theorem moveByte (tx : u.TxRing txSize accepted) (busy : u.channel.transCount ≠ 0) : u.moveByte.TxRing txSize accepted := by
  have running : u.txDmaRunning = true := by
    by_contra stopped
    exact busy (tx.idle (Bool.eq_false_iff.mpr stopped)).stopped
  have flight := tx.flight running
  obtain ⟨done, put, sent, total⟩ := tx.history
  have position := flight.position
  have left := flight.left
  have queued := flight.queued
  have inside := flight.inside
  refine ⟨tx.fixed, ⟨tx.ring.power, tx.ring.least, tx.ring.most, tx.ring.head, tx.ring.tail⟩, tx.chunk, ?_, tx.runs, done,
    put, ?_, total⟩
  · change if u.txDmaRunning then _ else _
    rw [if_pos running]
    refine ⟨flight.started, flight.some', flight.queued, flight.inside, ?_, ?_, ?_⟩
    · change u.channel.readAddr + 1 + (u.channel.transCount - 1) = u.txTail.toNat + u.txDmaActiveCount.toNat
      omega
    · exact Nat.le_trans (Nat.sub_le _ _) left
    · change (u.channel.irq || u.channel.transCount == 1) = true ↔ u.channel.transCount - 1 = 0
      have quiet : u.channel.irq = false := Bool.eq_false_iff.mpr fun pending => busy (flight.pending.mp pending)
      rw [quiet, Bool.false_or, beq_iff_eq]
      omega
  · change u.channel.wire ++ [u.txBuf u.channel.readAddr] =
      done ++ u.queued.take (u.txDmaActiveCount.toNat - (u.channel.transCount - 1))
    have next : u.queued[u.moved]? = some (u.txBuf u.channel.readAddr) := by
      have bound : u.moved < u.held := by rw [moved]; omega
      have slot : u.txTail.toNat + u.moved = u.channel.readAddr := by rw [moved]; omega
      rw [UartDma.queued, RingBuffer.entries, List.getElem?_map, List.getElem?_range bound, Option.map_some, slot,
        Nat.mod_eq_of_lt (by omega)]
    rw [sent, show u.txDmaActiveCount.toNat - (u.channel.transCount - 1) = u.moved + 1 by rw [moved]; omega,
      List.take_add_one, next, List.append_assoc]
    rfl

/-- What every section keeps outside the critical sections. -/
def Kept (u : UartDma) (txSize : UInt32) (accepted : List UInt8) : Prop := u.TxRing txSize accepted ∧ u.Driven

theorem Kept.restored {v : UartDma} (kept : Kept v txSize accepted) (save : Bool) :
    Kept (v.restoreInterrupts save) txSize accepted :=
  ⟨kept.1.aside save _ _ _, kept.2⟩

theorem full_iff (tx : u.TxRing txSize accepted) :
    u.masked (u.txHead.toUInt32 + 1) = u.txTail ↔ u.held + 1 = u.size := by
  have head := tx.ring.head
  have tail := tx.ring.tail
  have few := tx.ring.held_lt
  have least := tx.ring.least
  have next : (u.txHead.toNat + 1) % u.size < u.size := Nat.mod_lt _ (by omega)
  rw [← UInt16.toNat_inj, tx.ring.next, ← RingBuffer.held_eq_zero next tail]
  constructor
  · intro none'
    by_contra more
    rw [RingBuffer.held_push head tail (by change u.held + 1 < _; omega)] at none'
    omega
  · intro all
    have behind : (u.txTail.toNat + u.held) % u.size = u.txHead.toNat := RingBuffer.tail_add_held head tail
    rw [← behind, Nat.mod_add_mod, Nat.add_assoc, all, Nat.add_mod_right, Nat.mod_eq_of_lt tail,
      RingBuffer.held_eq_zero tail tail]

theorem writeByte (kept : Kept u txSize accepted) (b : UInt8) :
    Kept (u.writeByte b).2 txSize (accepted ++ if (u.writeByte b).1 then [b] else []) := by
  have locked : u.disableInterrupts.TxRing txSize accepted := kept.1.aside false _ _ _
  rw [UartDma.writeByte]
  split
  · simp only [Bool.false_eq_true, ↓reduceIte, List.append_nil]
    exact ⟨kept.1.aside _ _ _ _, kept.2⟩
  · next room =>
    rw [locked.full_iff] at room
    have few := locked.ring.held_lt
    exact Kept.restored (locked.pushByte (by omega) b).start _

theorem writeFrame (kept : Kept u txSize accepted) (data : ShortBuffer) :
    Kept (u.writeFrame data).2 txSize (accepted ++ if (u.writeFrame data).1 then data.val else []) := by
  have locked : u.disableInterrupts.TxRing txSize accepted := kept.1.aside false _ _ _
  rw [UartDma.writeFrame]
  split
  · simpa using kept
  · dsimp only
    split
    · simp only [Bool.false_eq_true, ↓reduceIte, List.append_nil]
      exact ⟨kept.1.aside _ _ _ _, kept.2⟩
    · next room =>
      have fits : data.val.length ≤ u.disableInterrupts.txFreeSpaceLocked.toNat := by
        have := UInt16.le_iff_toNat_le.mp (UInt16.not_lt.mp room)
        rwa [UInt16.toNat_ofNat_of_lt' data.property] at this
      rw [locked.ring.free] at fits
      have few := locked.ring.held_lt
      exact Kept.restored (locked.pushBytes data.val (by omega)).start _

theorem startTxDmaIfNeeded (kept : Kept u txSize accepted) : Kept u.startTxDmaIfNeeded txSize accepted := by
  have locked : u.disableInterrupts.TxRing txSize accepted := kept.1.aside false _ _ _
  have same : u.startTxDmaIfNeeded = u.disableInterrupts.startTxDmaIfNeededIsr.restoreInterrupts u.interrupts := by
    rw [UartDma.startTxDmaIfNeeded, startTxDmaIfNeededIsr]
    split
    · rfl
    · split <;> rfl
  rw [same, locked.startIsr_eq]
  exact Kept.restored locked.start _

theorem advance (kept : Kept u txSize accepted) (call : UartCall) :
    Kept (u.advance call).uart txSize (accepted ++ (u.advance call).accepted) := by
  have reads : Kept { u with interrupts := u.interrupts } txSize (accepted ++ []) := by simpa using kept
  cases call with
  | writeByte b => exact writeByte kept b
  | writeFrame data => exact writeFrame kept data
  | writeBuffer rest =>
    cases rest with
    | nil => exact reads
    | cons b rest => exact writeByte kept b
  | queueing rest result =>
    cases rest with
    | nil => exact reads
    | cons b rest => exact writeByte kept b
  | writeFrameBlocking frame =>
    rw [UartDma.advance]
    split
    · exact reads
    · split
      · exact reads
      · dsimp only
        split <;> exact reads
  | startTxDmaIfNeeded =>
    have started := startTxDmaIfNeeded kept
    rw [← List.append_nil accepted] at started
    exact started
  | getTxByteDropCount => exact reads
  | getTxDropFrameCount => exact reads
  | getTxDropBytesCount => exact reads

theorem hardware (kept : Kept u txSize accepted) {action : HardwareAction} {v : UartDma}
    (taken : u.hardware action = some v) : Kept v txSize accepted := by
  cases action with
  | moveByte =>
    rw [UartDma.hardware] at taken
    split at taken
    · cases taken
    · next busy =>
      cases taken
      exact ⟨kept.1.moveByte busy, kept.2⟩
  | interrupt =>
    rw [UartDma.hardware] at taken
    split at taken
    · next pending =>
      cases taken
      exact kept.1.interrupt (Bool.and_eq_true_iff.mp pending).2
    · cases taken

end TxRing

end UartDma

namespace UartSystem
open UartDma

theorem step_kept {s t : UartSystem} {txSize : UInt32} {action : UartAction} (kept : TxRing.Kept s.uart txSize s.accepted)
    (taken : s.step action = some t) : TxRing.Kept t.uart txSize t.accepted := by
  cases action with
  | enter call =>
    cases taken
    exact kept
  | advance index =>
    obtain ⟨call, _, rfl⟩ := Option.map_eq_some_iff.mp taken
    exact TxRing.advance kept call
  | hardware action =>
    obtain ⟨v, moved, rfl⟩ := Option.map_eq_some_iff.mp taken
    exact TxRing.hardware kept moved
  | kernel enabled =>
    cases taken
    exact TxRing.Kept.restored kept enabled

theorem start_kept {txSize : UInt32} (power : ∃ k, txSize.toNat = 2 ^ k) (least : 2 ≤ txSize.toNat)
    (most : txSize.toNat ≤ 65536) (txBuf : Nat → UInt8) : TxRing.Kept (UartDma.new txSize txBuf) txSize [] := by
  have zero : (0 : UInt16).toNat < txSize.toNat := Nat.lt_of_lt_of_le (by decide) least
  have none' : (UartDma.new txSize txBuf).held = 0 := (RingBuffer.held_eq_zero zero zero).mpr rfl
  have empty : (UartDma.new txSize txBuf).queued = [] := by
    rw [queued, none']
    rfl
  refine ⟨⟨rfl, ⟨power, least, most, zero, zero⟩, rfl, ⟨rfl, rfl, rfl⟩, nofun, [], ?_, ?_, rfl⟩, fun some' => absurd rfl some'⟩
  · rw [empty]; rfl
  · rw [empty]; rfl

/-- The ring is a FIFO that does not stall. The bytes moved to the wire and then those in the
ring behind them are the accepted bytes; the transfers started so far are of the first of them.
Every transfer is a run inside the buffer, the running one of queued bytes from `tx_tail_`,
and one with the active count is running whenever the ring holds bytes. -/
theorem tx_ring_is_fifo (txSize : UInt32) (power : ∃ k, txSize.toNat = 2 ^ k) (least : 2 ≤ txSize.toNat)
    (most : txSize.toNat ≤ 65536) (txBuf : Nat → UInt8) {s : UartSystem}
    (reached : Machine.Reach step (fun _ _ => True) (UartSystem.start (UartDma.new txSize txBuf)) s) :
    let u := s.uart
    u.channel.wire ++ u.queued.drop u.moved = s.accepted ∧
      u.channel.wire.length + u.channel.transCount = (u.channel.started.map Prod.snd).sum ∧
      u.queued.length ≤ txSize.toNat - 1 ∧
      (∀ transfer ∈ u.channel.started, 0 < transfer.2 ∧ transfer.1 + transfer.2 ≤ txSize.toNat) ∧
      (u.txDmaRunning = true →
        u.channel.started.getLast? = some (u.txTail.toNat, u.txDmaActiveCount.toNat) ∧
          u.txDmaActiveCount.toNat ≤ u.queued.length ∧ u.channel.readAddr = u.txTail.toNat + u.moved ∧
          (u.channel.irq = true ↔ u.channel.transCount = 0)) ∧
      (u.queued ≠ [] → u.txDmaRunning = true) := by
  intro u
  obtain ⟨tx, driven⟩ : TxRing.Kept u txSize s.accepted :=
    reached.invariant (fun s => TxRing.Kept s.uart txSize s.accepted) (start_kept power least most txBuf)
      fun kept _ taken => step_kept kept taken
  obtain ⟨done, put, sent, total⟩ := tx.history
  have length : u.queued.length = u.held := by rw [queued, RingBuffer.length_entries]
  have size : u.size = txSize.toNat := congrArg UInt32.toNat tx.fixed
  have few := tx.ring.held_lt
  have part := tx.moved_le
  refine ⟨?_, ?_, by omega, by rw [← size]; exact tx.runs, ?_, ?_⟩
  · rw [sent, put, List.append_assoc, List.take_append_drop]
  · rw [sent, List.length_append, List.length_take, length, Nat.min_eq_left part, total, moved]
    have left : u.channel.transCount ≤ u.txDmaActiveCount.toNat := by
      by_cases running : u.txDmaRunning = true
      · exact (tx.flight running).left
      · rw [(tx.idle (Bool.eq_false_iff.mpr running)).stopped]
        exact Nat.zero_le _
    change _ + (u.txDmaActiveCount.toNat - u.channel.transCount) + u.channel.transCount = _ + u.txDmaActiveCount.toNat
    omega
  · intro running
    have flight := tx.flight running
    obtain ⟨earlier, started⟩ := flight.started
    have position := flight.position
    have left := flight.left
    refine ⟨by rw [started, List.getLast?_concat], by rw [length]; exact flight.queued, ?_, flight.pending⟩
    rw [moved]
    omega
  · intro some'
    refine driven fun same => some' (List.eq_nil_of_length_eq_zero ?_)
    rw [length]
    exact (RingBuffer.held_eq_zero tx.ring.head tx.ring.tail).mpr (congrArg UInt16.toNat same)

/-- A frame is queued, sent whole and its transfer acknowledged. -/
theorem tx_ring_is_fifo_frame :
    ∃ s, Machine.run step (UartSystem.start (UartDma.new 4 fun _ => 0))
        [.enter (.writeFrame ⟨[7, 8], by decide⟩), .advance 0, .hardware .moveByte, .hardware .moveByte,
          .hardware .interrupt] = some s ∧
      s.uart.channel.wire = [7, 8] ∧ s.uart.channel.wire ++ s.uart.queued.drop s.uart.moved = s.accepted := by
  obtain ⟨s, ran, sent⟩ : ∃ s, Machine.run step (UartSystem.start (UartDma.new 4 fun _ => 0))
      [.enter (.writeFrame ⟨[7, 8], by decide⟩), .advance 0, .hardware .moveByte, .hardware .moveByte,
        .hardware .interrupt] = some s ∧ s.uart.channel.wire = [7, 8] := ⟨_, rfl, rfl⟩
  refine ⟨s, ran, sent, ?_⟩
  exact (tx_ring_is_fifo 4 ⟨2, rfl⟩ (by decide) (by decide) (fun _ => 0)
    (Machine.Reach.run .start (fun _ _ _ _ _ _ => trivial) ran)).1

end UartSystem
end PicoWLogger
