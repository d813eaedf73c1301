import PicoWLogger.UartCalls

/-! The interrupt enable across transmit and counter calls: every exit restores it but the
one of a frame that does not fit. -/

namespace PicoWLogger.UartDma
variable {u v w : UartDma} {call : UartCall}

@[simp] theorem startIsr_interrupts (u : UartDma) : u.startTxDmaIfNeededIsr.interrupts = u.interrupts := by
  rw [startTxDmaIfNeededIsr]
  split
  · rfl
  · split <;> rfl

theorem startIfNeeded_interrupts (u : UartDma) : u.startTxDmaIfNeeded.interrupts = u.interrupts := by
  rw [startTxDmaIfNeeded]
  split
  · rfl
  · split <;> rfl

theorem writeByte_interrupts (u : UartDma) (b : UInt8) : (u.writeByte b).2.interrupts = u.interrupts := by
  rw [writeByte]
  split <;> rfl

theorem writeFrame_interrupts {data : ShortBuffer} (fits : u.dropsEnabled (.writeFrame data) = false) :
    (u.writeFrame data).2.interrupts = u.interrupts := by
  rw [writeFrame]
  split
  · rfl
  · next some' =>
    dsimp only
    split
    · next more =>
      -- The early exit: the interrupts stay disabled, as they were before.
      have already : u.interrupts = false := by
        have free : UInt16.ofNat data.val.length > u.txFreeSpaceLocked := more
        simpa [dropsEnabled, some', free] using fits
      rw [already]
      rfl
    · rfl

theorem advance_interrupts (fits : u.dropsEnabled call = false) :
    (u.advance call).uart.interrupts = u.interrupts := by
  cases call with
  | writeByte b => exact writeByte_interrupts u b
  | writeFrame data => exact writeFrame_interrupts fits
  | writeBuffer rest =>
    cases rest with
    | nil => rfl
    | cons b rest => exact writeByte_interrupts u b
  | queueing rest result =>
    cases rest with
    | nil => rfl
    | cons b rest => exact writeByte_interrupts u b
  | writeFrameBlocking frame =>
    rw [advance]
    split
    · rfl
    · split
      · rfl
      · dsimp only
        split <;> rfl
  | startTxDmaIfNeeded => exact startIfNeeded_interrupts u
  | getTxByteDropCount => rfl
  | getTxDropFrameCount => rfl
  | getTxDropBytesCount => rfl

theorem rest_fits {rest : UartCall} (continued : (u.advance call).next = .inl rest) (v : UartDma) :
    v.dropsEnabled rest = false := by
  cases call with
  | writeBuffer bytes =>
    cases bytes with
    | nil => cases continued
    | cons b bytes => cases continued; rfl
  | queueing bytes result =>
    cases bytes with
    | nil => cases continued
    | cons b bytes => cases continued; rfl
  | writeFrameBlocking frame =>
    rw [advance] at continued
    split at continued
    · cases continued
    · split at continued
      · cases continued
      · dsimp only at continued
        split at continued <;> (cases continued; rfl)
  | writeByte b => cases continued
  | writeFrame data => cases continued
  | startTxDmaIfNeeded => cases continued
  | getTxByteDropCount => cases continued
  | getTxDropFrameCount => cases continued
  | getTxDropBytesCount => cases continued

theorem hardware_interrupts {action : HardwareAction} (taken : u.hardware action = some v) :
    v.interrupts = u.interrupts := by
  cases action with
  | moveByte =>
    rw [hardware] at taken
    split at taken
    · cases taken
    · cases taken
      rfl
  | interrupt =>
    rw [hardware] at taken
    split at taken
    · cases taken
      rw [dmaIrqTrampoline, dmaIrqHandler]
      dsimp only
      rw [startIsr_interrupts]
      split <;> rfl
    · cases taken

theorem Waits.interrupts (waits : Waits u v) : v.interrupts = u.interrupts := by
  induction waits with
  | now => rfl
  | later taken waits ih => rw [ih, hardware_interrupts taken]

theorem Returns.interrupts (returns : Returns call u v) (fits : u.dropsEnabled call = false) :
    v.interrupts = u.interrupts := by
  induction returns with
  | last returned => exact advance_interrupts fits
  | more continued waits returns ih => rw [ih (rest_fits continued _), waits.interrupts, advance_interrupts fits]

theorem Returns.disabled (returns : Returns call u v) (drops : u.dropsEnabled call = true) :
    u.interrupts = true ∧ v.interrupts = false := by
  cases call with
  | writeFrame data =>
    rw [dropsEnabled, Bool.and_eq_true, Bool.and_eq_true, bne_iff_ne, decide_eq_true_iff] at drops
    obtain ⟨⟨enabled, some'⟩, more⟩ := drops
    refine ⟨enabled, ?_⟩
    cases returns with
    | last returned =>
      change (u.writeFrame data).2.interrupts = false
      rw [writeFrame, if_neg some']
      dsimp only
      rw [if_pos (by exact more)]
      rfl
    | more continued waits returns => cases continued
  | _ => cases drops

/-- A call changes the interrupt enable exactly when it is a `write_frame` that drops. -/
theorem Returns.interrupts_iff (returns : Returns call u v) :
    v.interrupts = u.interrupts ↔ u.dropsEnabled call = false := by
  constructor
  · intro same
    by_contra drops
    obtain ⟨enabled, disabled⟩ := returns.disabled (Bool.eq_true_of_not_eq_false drops)
    rw [enabled, disabled] at same
    cases same
  · exact returns.interrupts

/-- In a session of calls all leave the interrupt enable as it was on entry exactly when
none of them is a `write_frame`, entered with interrupts enabled, of more bytes than there is room for. -/
theorem session_interrupts_iff {trace : List (UartCall × UartDma × UartDma)} (session : Session u trace) :
    (∀ entry ∈ trace, entry.2.2.interrupts = entry.2.1.interrupts) ↔
      ∀ entry ∈ trace, entry.2.1.dropsEnabled entry.1 = false := by
  induction session with
  | done => exact iff_of_true (List.forall_mem_nil _) (List.forall_mem_nil _)
  | call enabled waits returns session ih => rw [List.forall_mem_cons, List.forall_mem_cons, ih, returns.interrupts_iff]

theorem session_interrupts_byte :
    ((new 8192 fun _ => 0).advance (.writeByte 7)).uart.interrupts = true := by
  have entered : (new 8192 fun _ => 0).restoreInterrupts true = new 8192 fun _ => 0 := rfl
  have returns : Returns (.writeByte 7) (new 8192 fun _ => 0) ((new 8192 fun _ => 0).advance (.writeByte 7)).uart :=
    .last rfl
  have session := Session.call (u := new 8192 fun _ => 0) true (entered ▸ .now) returns .done
  exact (session_interrupts_iff session).mpr (List.forall_mem_singleton.mpr rfl) _ (.head _)

/-- The ring of 8192 bytes with 8180 of them queued and the first chunk under way. -/
def nearlyFull : UartDma :=
  { new 8192 fun _ => 0 with
    txHead := 8180
    txDmaRunning := true
    txDmaActiveCount := 1024
    channel := { readAddr := 0, transCount := 1024, irq := false, started := [(0, 1024)], wire := [] } }

def shortFrame : UartCall := .writeFrame ⟨List.replicate 18 0, by decide⟩

theorem session_leaves_disabled :
    ¬ ∀ u trace, Session u trace → ∀ entry ∈ trace, entry.2.2.interrupts = entry.2.1.interrupts := by
  intro preserved
  have returns : Returns shortFrame nearlyFull (nearlyFull.advance shortFrame).uart := .last rfl
  have entered : nearlyFull.restoreInterrupts true = nearlyFull := rfl
  have same := preserved _ _ (Session.call (u := nearlyFull) true (entered ▸ .now) returns .done) _ (.head _)
  rw [returns.interrupts_iff] at same
  exact absurd same (by decide)

end PicoWLogger.UartDma
