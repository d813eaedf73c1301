import PicoWLogger.FlashListing
import PicoWLogger.Proofs.Dump

/-! The walks over the log agree, whatever the flash holds and wherever the index points. -/

namespace PicoWLogger.FlashLogStorage
variable {s : FlashLogStorage}

def ListedFrame.cells (s : FlashLogStorage) (listed : ListedFrame) : List UInt8 :=
  s.flash.cellsFrom listed.addr listed.frameSize

private theorem drop_here {α : Type} (item : α) (items : List α) (skip seen : Nat) :
    (if seen ≥ skip then [item] else []) ++ items.drop (skip - (seen + 1)) = (item :: items).drop (skip - seen) := by
  by_cases shown : seen ≥ skip
  · rw [if_pos shown, Nat.sub_eq_zero_of_le shown, Nat.sub_eq_zero_of_le (Nat.le_succ_of_le shown)]
    rfl
  · have more : skip - seen = skip - (seen + 1) + 1 := by omega
    rw [if_neg shown, more, List.drop_succ_cons, List.nil_append]

theorem sendLoop_listed (config : isConfigValid s.config = true) (locked : s.mutexCreated = true)
    (skip addr scanned seen : Nat) :
    s.sendLoop skip addr scanned seen =
      (true, ((s.dumpLoop addr scanned).map (ListedFrame.cells s)).drop (skip - seen)) := by
  fun_induction dumpLoop s addr scanned generalizing seen with
  | case1 addr scanned more header size valid ih =>
    have read := readFrame_valid config locked valid
    have length : (s.flash.cellsFrom addr size).length = size := cellsFrom_length _ _ _
    rw [sendLoop, if_pos more, valid]
    simp only
    split
    next unread => rw [read] at unread; cases unread
    next frame sent =>
      rw [read] at sent
      cases sent
      rw [List.map_cons, ← drop_here, ListedFrame.cells]
      by_cases newest : header.seq = s.newestSeq
      · rw [if_pos newest, if_pos newest, List.map_nil, List.drop_nil, List.append_nil]
      · rw [if_neg newest, if_neg newest, length, ih]
  | case2 addr scanned more invalid ih =>
    rw [sendLoop, if_pos more, invalid]
    exact ih seen
  | case3 addr scanned done =>
    rw [sendLoop, if_neg done, List.map_nil, List.drop_nil]

theorem readTestLoop_listed (config : isConfigValid s.config = true) (locked : s.mutexCreated = true) (addr scanned : Nat) :
    s.readTestLoop addr scanned = (true, (s.dumpLoop addr scanned).map fun listed => (listed, listed.cells s)) := by
  fun_induction dumpLoop s addr scanned with
  | case1 addr scanned more header size valid ih =>
    have read := readFrame_valid config locked valid
    have length : (s.flash.cellsFrom addr size).length = size := cellsFrom_length _ _ _
    rw [readTestLoop, if_pos more, valid]
    simp only
    split
    next unread => rw [read] at unread; cases unread
    next frame sent =>
      rw [read] at sent
      cases sent
      by_cases newest : header.seq = s.newestSeq
      · rw [if_pos newest, if_pos newest]
        rfl
      · rw [if_neg newest, if_neg newest, length, ih]
        rfl
  | case2 addr scanned more invalid ih =>
    rw [readTestLoop, if_pos more, invalid]
    exact ih
  | case3 addr scanned done => rw [readTestLoop, if_neg done, List.map_nil]

/-- The walks over the log agree on any flash and any index: what one lists, the others read and send, and the latest
frames are the last of them by the stored count. -/
theorem walks_agree (config : isConfigValid s.config = true) (initialized : s.initialized = true)
    (locked : s.mutexCreated = true) :
    let listed := s.dumpFramesOldestFirst.2
    s.dumpFramesOldestFirst.1 = true ∧
      s.readFramesOldestFirstTest = (true, listed.map fun frame => (frame, frame.cells s)) ∧
      s.sendFramesOldestFirst = (true, listed.map (ListedFrame.cells s)) ∧
      ∀ count, s.sendLatestFrames count =
        (true, if count = 0 then []
          else (listed.map (ListedFrame.cells s)).drop (s.validFrameCount - min count s.validFrameCount)) := by
  intro listed
  have sent := sendLoop_listed config locked
  by_cases empty : s.validFrameCount = 0
  · have nothing : listed = [] := by simp [listed, dumpFramesOldestFirst, initialized, empty]
    rw [nothing]
    simp [dumpFramesOldestFirst, readFramesOldestFirstTest, sendFramesOldestFirst, sendLatestFrames, lock, initialized,
      locked, empty]
  · have walked : listed = s.dumpLoop s.oldestAddr 0 := by simp [listed, dumpFramesOldestFirst, initialized, empty]
    rw [walked]
    refine ⟨?_, ?_, ?_, fun count => ?_⟩
    · simp [dumpFramesOldestFirst, initialized, empty]
    · simp [readFramesOldestFirstTest, initialized, empty, readTestLoop_listed config locked]
    · simp [sendFramesOldestFirst, lock, initialized, locked, empty, sent]
    · have target : (if count > s.validFrameCount then s.validFrameCount else count) = min count s.validFrameCount := by
        split <;> omega
      simp only [sendLatestFrames, lock, initialized, locked, empty, sent, target, Bool.not_true, Bool.false_eq_true,
        ↓reduceIte, Nat.sub_zero]
      split <;> rfl

/-- The walk does not look at the stored count. -/
theorem dumpLoop_count (n addr scanned : Nat) :
    dumpLoop { s with validFrameCount := n } addr scanned = s.dumpLoop addr scanned := by
  fun_induction dumpLoop s addr scanned with
  | case1 addr scanned more header size valid ih =>
    have same : isValidFrameAt { s with validFrameCount := n } addr = some (header, size) := valid
    rw [dumpLoop, if_pos more, same]
    simp only
    exact congrArg (List.cons _) (if_congr Iff.rfl rfl ih)
  | case2 addr scanned more invalid ih =>
    have same : isValidFrameAt { s with validFrameCount := n } addr = none := invalid
    rw [dumpLoop, if_pos more, same]
    exact ih
  | case3 addr scanned done =>
    rw [dumpLoop, if_neg done]

/-- Two frames and an index that counts three. -/
theorem walks_agree_astray :
    ∃ t, ((blankStorage ⟨0, 8192⟩).init true).2.appendAll (shortRecords [0, 1]) = t ∧
      sendFramesOldestFirst { t with validFrameCount := 3 } = (true, (shortRecords [0, 1]).map Record.frame) ∧
      sendLatestFrames { t with validFrameCount := 3 } 2 = (true, (shortRecords [1]).map Record.frame) := by
  have dump := dump_oneSector (shortRecords [0, 1]) (by simp [shortRecords]) (by rw [length_shortRecords]; decide)
    (by decide +kernel)
  obtain ⟨config, represents, count⟩ := appendAll_oneSector (shortRecords [0, 1]) (by simp [shortRecords])
    (by rw [length_shortRecords]; decide)
  obtain ⟨t, isT⟩ : ∃ t, ((blankStorage ⟨0, 8192⟩).init true).2.appendAll (shortRecords [0, 1]) = t := ⟨_, rfl⟩
  rw [isT] at dump config represents count
  have valid : isConfigValid t.config = true := by rw [config]; decide
  obtain ⟨-, -, sent, -⟩ := walks_agree valid represents.initialized represents.locked
  obtain ⟨-, -, all, latest⟩ := walks_agree (s := { t with validFrameCount := 3 }) valid represents.initialized
    represents.locked
  have listed : dumpFramesOldestFirst { t with validFrameCount := 3 } = t.dumpFramesOldestFirst := by
    have some' : t.validFrameCount ≠ 0 := by rw [count]; decide
    rw [dumpFramesOldestFirst, dumpFramesOldestFirst, dumpLoop_count]
    simp [represents.initialized, some']
  have frames : t.dumpFramesOldestFirst.2.map (ListedFrame.cells t) = (shortRecords [0, 1]).map Record.frame :=
    (Prod.ext_iff.mp (sent.symm.trans dump)).2
  have same : t.dumpFramesOldestFirst.2.map (ListedFrame.cells { t with validFrameCount := 3 }) =
      (shortRecords [0, 1]).map Record.frame := frames
  rw [listed, same] at all latest
  exact ⟨t, isT, all, latest 2⟩

end PicoWLogger.FlashLogStorage
