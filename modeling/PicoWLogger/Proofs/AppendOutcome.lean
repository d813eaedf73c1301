import PicoWLogger.Proofs.AppendEffect

/-! What an append can do when locks time out and status polls fail. Whatever goes wrong, a
beginning of the data is programmed at its place, and the index is recovered from the flash. -/

namespace PicoWLogger

namespace FlashDriver

variable {flash : FlashDriver} {polls : Nat → Bool} {requests : List FlashRequest}

theorem answering_programCells (addr : Nat) (data : List UInt8) :
    (flash.answering polls requests).programCells addr data =
      (flash.programCells addr data).answering polls requests := rfl

theorem programCells_answering (addr : Nat) (front back : List UInt8) :
    ((flash.programCells addr front).answering polls requests).programCells (addr + front.length) back =
      (flash.programCells addr (front ++ back)).answering polls requests := by
  rw [answering_programCells]
  have joined := programCells_append flash addr front back flash.requests
  exact congrArg (fun chip => chip.answering polls requests) joined

end FlashDriver

namespace FlashLogStorage
open FlashDriver

/-- How the page loop ends: all of `data` is programmed, or a beginning of it and the index is recovered. -/
inductive PagesOutcome (s : FlashLogStorage) (addr : Nat) (data : List UInt8) (result : Option Nat × FlashLogStorage) :
    Prop where
  | done (polls : Nat → Bool) (requests : List FlashRequest) (sharedIo : Nat → Bool)
      (same : result = (some (addr + data.length),
        { s with flash := (s.flash.programCells addr data).answering polls requests, sharedIo }))
  | failed (part : List UInt8) (isPrefix : part <+: data) (polls : Nat → Bool) (requests : List FlashRequest)
      (sharedIo : Nat → Bool) (writeAddr : Nat)
      (same : result = (none, rebuildIndexFromFlash
        { s with flash := (s.flash.programCells addr part).answering polls requests, sharedIo, writeAddr }))

/-- Behind bytes that are programmed, the loop ends as it does for the rest. -/
theorem PagesOutcome.behind {s : FlashLogStorage} {addr : Nat} {front back : List UInt8} {polls : Nat → Bool}
    {requests : List FlashRequest} {sharedIo : Nat → Bool} {result : Option Nat × FlashLogStorage}
    (rest : PagesOutcome { s with flash := (s.flash.programCells addr front).answering polls requests, sharedIo }
      (addr + front.length) back result) : PagesOutcome s addr (front ++ back) result := by
  cases rest with
  | done polls' requests' sharedIo' same =>
    refine .done polls' requests' sharedIo' (same.trans ?_)
    rw [List.length_append, ← Nat.add_assoc, ← programCells_answering]
    rfl
  | failed part isPrefix polls' requests' sharedIo' writeAddr same =>
    refine .failed (front ++ part) ?_ polls' requests' sharedIo' writeAddr (same.trans ?_)
    · obtain ⟨tail, shape⟩ := isPrefix
      exact ⟨tail, by rw [List.append_assoc, shape]⟩
    · rw [← programCells_answering]
      rfl

theorem programPages_outcome {s : FlashLogStorage} (flashEnd : s.config.endAddr ≤ FLASH_SIZE) (old addr : Nat)
    (data : List UInt8) (inside : addr + data.length ≤ s.config.endAddr) :
    PagesOutcome s addr data (s.programPages old addr data) := by
  induction size : data.length using Nat.strongRecOn generalizing s addr data with
  | ind size ih =>
    by_cases some' : data = []
    · subst some'
      refine .done s.flash.polls s.flash.requests s.sharedIo ?_
      rw [programPages, if_neg (by simp), programCells_nil, List.length_nil]
      rfl
    · obtain ⟨chunk, rest, rfl, nonempty, page, turn⟩ := programPages_turn flashEnd old inside some'
      have positive := List.length_pos_iff.mpr nonempty
      rw [List.length_append] at size inside
      obtain ⟨requests, program⟩ := pageProgram_eq s.flash addr positive (by omega) page
      rw [turn, program]
      cases granted : s.sharedIo 0 with
      | false =>
        refine .failed [] List.nil_prefix s.flash.polls s.flash.requests (fun n => s.sharedIo (n + 1)) s.writeAddr ?_
        rw [programCells_nil]
        rfl
      | true =>
        cases enabled : s.flash.polls 0 with
        | false =>
          refine .failed [] List.nil_prefix (fun n => s.flash.polls (n + 1)) requests (fun n => s.sharedIo (n + 1)) old ?_
          rw [programCells_nil]
          rfl
        | true =>
          cases ready : s.flash.polls 1 with
          | false =>
            exact .failed chunk (List.prefix_append _ _) (fun n => s.flash.polls (n + 2)) requests
              (fun n => s.sharedIo (n + 1)) old rfl
          | true =>
            have later := ih rest.length (by omega)
              (s := { s with
                flash := (s.flash.programCells addr chunk).answering (fun n => s.flash.polls (n + 2)) requests
                sharedIo := fun n => s.sharedIo (n + 1) })
              flashEnd (addr + chunk.length) rest (by change _ ≤ s.config.endAddr; omega) rfl
            exact later.behind

/-- The state in which an operation fails and recovers the index, with what it left in the cells. -/
def broken (s : FlashLogStorage) (index : Index) (chip : FlashDriver) (polls : Nat → Bool) (requests : List FlashRequest)
    (sharedIo : Nat → Bool) : FlashLogStorage :=
  { s.withIndex index with flash := chip.answering polls requests, sharedIo }

inductive BeginOutcome (s : FlashLogStorage) (addr : Nat) (result : Bool × FlashLogStorage) : Prop where
  | begun (polls : Nat → Bool) (requests : List FlashRequest) (sharedIo : Nat → Bool)
      (same : result =
        (true, { s.begun addr with flash := (s.begun addr).flash.answering polls requests, sharedIo }))
  | failed (index : Index) (chip : FlashDriver) (cells : chip = s.flash ∨ chip = (s.begun addr).flash)
      (polls : Nat → Bool) (requests : List FlashRequest) (sharedIo : Nat → Bool)
      (same : result = (false, rebuildIndexFromFlash (s.broken index chip polls requests sharedIo)))

theorem beginSector_outcome (s : FlashLogStorage) {addr : Nat} (inside : addr < FLASH_SIZE) :
    BeginOutcome s addr (s.beginSector addr) := by
  by_cases aligned : isSectorStart addr = true
  · have start : addr % 4096 = 0 := by simpa [isSectorStart] using aligned
    have invalidated := invalidate_keeps s addr
    obtain ⟨index, isIndex⟩ : ∃ index, (s.invalidateFramesInErasedSector addr).index = index := ⟨_, rfl⟩
    rw [isIndex] at invalidated
    have emptied : s.begun addr = { s.withIndex index with flash := s.flash.eraseCells addr } := by
      rw [begun, if_pos aligned, invalidated]
    simp only [beginSector, aligned, Bool.not_true, Bool.false_eq_true, ↓reduceIte]
    rw [invalidated, lockSharedIo_eq]
    cases granted : (s.withIndex index).sharedIo 0 with
    | false =>
      exact .failed index s.flash (.inl rfl) s.flash.polls s.flash.requests (fun n => s.sharedIo (n + 1)) rfl
    | true =>
      obtain ⟨requests, erase⟩ := sectorErase_eq s.flash start inside
      have sameFlash : (s.withIndex index).flash = s.flash := rfl
      simp only [sameFlash, erase]
      cases enabled : s.flash.polls 0 with
      | false =>
        exact .failed index s.flash (.inl rfl) (fun n => s.flash.polls (n + 1)) requests (fun n => s.sharedIo (n + 1)) rfl
      | true =>
        cases ready : s.flash.polls 1 with
        | false =>
          refine .failed index (s.begun addr).flash (.inr rfl) (fun n => s.flash.polls (n + 2)) requests
            (fun n => s.sharedIo (n + 1)) ?_
          rw [emptied]
          rfl
        | true =>
          refine .begun (fun n => s.flash.polls (n + 2)) requests (fun n => s.sharedIo (n + 1)) ?_
          rw [emptied]
          rfl
  · refine .begun s.flash.polls s.flash.requests s.sharedIo ?_
    simp only [beginSector, begun, aligned, Bool.not_false, ↓reduceIte, Bool.false_eq_true]
    rfl

/-- How an append to `addr` ends: it is refused, it fails and recovers the index from what it left, or
the frame it wrote passes the final check. -/
inductive AppendOutcome (s : FlashLogStorage) (addr : Nat) (data : List UInt8) (result : Bool × FlashLogStorage) :
    Prop where
  | failed (index : Index) (chip : FlashDriver)
      (cells : chip = s.flash ∨ ∃ part, part <+: data ∧ chip = (s.begun addr).flash.programCells addr part)
      (polls : Nat → Bool) (requests : List FlashRequest) (sharedIo : Nat → Bool)
      (same : result = (false, rebuildIndexFromFlash (s.broken index chip polls requests sharedIo)))
  | stored (polls : Nat → Bool) (requests : List FlashRequest) (sharedIo : Nat → Bool) (header : LogFrameHeader) (size : Nat)
      (valid : { s.written addr data requests with
        flash := (s.written addr data requests).flash.answering polls requests, sharedIo }.isValidFrameAt addr =
          some (header, size))
      (same : result = (true, updateIndexAfterAppend { s.written addr data requests with
        flash := (s.written addr data requests).flash.answering polls requests, sharedIo } addr header))

theorem append_outcome {s : FlashLogStorage} (config : isConfigValid s.config = true) (initialized : s.initialized = true)
    (locked : s.mutexCreated = true) (data : List UInt8) (nonempty : 0 < data.length) (fits : data.length ≤ 4096) {addr : Nat}
    (place : s.appendAddress data.length = addr) (inside : addr + data.length ≤ s.config.endAddr) :
    AppendOutcome s addr data (s.append data) := by
  have flashEnd := ((isConfigValid_iff _).mp config).2.2.1
  have some' : data.length ≠ 0 := by omega
  have notLarge : ¬ data.length > SECTOR_SIZE := by
    simp only [SECTOR_SIZE]
    omega
  obtain ⟨result, isResult⟩ : ∃ result, s.append data = result := ⟨_, rfl⟩
  have goes := isResult
  simp only [append, initialized, some', lock, locked, notLarge, place, Bool.not_true, Bool.false_eq_true,
    ↓reduceIte] at goes
  rw [isResult]
  cases beginSector_outcome s (by omega : addr < FLASH_SIZE) with
  | failed index chip cells polls requests sharedIo same =>
    rw [same] at goes
    refine .failed index chip ?_ polls requests sharedIo goes.symm
    rcases cells with unchanged | begun
    · exact .inl unchanged
    · exact .inr ⟨[], List.nil_prefix, by rw [begun, programCells_nil]⟩
  | begun polls requests sharedIo same =>
    rw [same] at goes
    obtain ⟨t, isT⟩ : ∃ t, t = { s.begun addr with flash := (s.begun addr).flash.answering polls requests, sharedIo } :=
      ⟨_, rfl⟩
    rw [← isT] at goes
    have keeps := begun_keeps s addr
    have sameConfig : t.config = s.config := by
      rw [isT, keeps]
      rfl
    cases programPages_outcome (s := t) (by rwa [sameConfig]) s.writeAddr addr data (by rwa [sameConfig]) with
    | failed part isPrefix polls requests sharedIo writeAddr same =>
      simp only [same] at goes
      refine .failed { (s.begun addr).index with writeAddr } ((s.begun addr).flash.programCells addr part)
        (.inr ⟨part, isPrefix, rfl⟩) polls requests sharedIo (goes.symm.trans ?_)
      rw [isT, keeps]
      rfl
    | done polls requests sharedIo same =>
      obtain ⟨u, isU⟩ : ∃ u, u = { s.written addr data requests with
          flash := (s.written addr data requests).flash.answering polls requests, sharedIo } := ⟨_, rfl⟩
      have reached : u = { t with
          flash := (t.flash.programCells addr data).answering polls requests, sharedIo
          writeAddr := t.wrapAddress (addr + data.length) } := by
        rw [isU, isT, written, keeps]
        rfl
      have wraps (flash : FlashDriver) (sharedIo : Nat → Bool) (a : Nat) :
          { t with flash, sharedIo }.wrapAddress a = t.wrapAddress a := rfl
      simp only [same, wraps] at goes
      rw [← reached] at goes
      cases valid : u.isValidFrameAt addr with
      | none =>
        rw [valid] at goes
        have recovered : result = (false, rebuildIndexFromFlash { u with writeAddr := s.writeAddr }) := by
          rw [reached]
          exact goes.symm
        refine .failed { u.index with writeAddr := s.writeAddr } ((s.begun addr).flash.programCells addr data)
          (.inr ⟨data, List.prefix_refl _, rfl⟩) polls requests sharedIo (recovered.trans ?_)
        rw [isU, written, keeps]
        rfl
      | some found =>
        obtain ⟨header, size⟩ := found
        rw [valid] at goes
        rw [isU] at valid goes
        exact .stored polls requests sharedIo header size valid goes.symm

end FlashLogStorage

end PicoWLogger
