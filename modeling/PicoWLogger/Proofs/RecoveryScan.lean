import PicoWLogger.EventLogger
import PicoWLogger.Proofs.FoundFrames
import PicoWLogger.Proofs.RingIndex

/-! The recovery scan on any flash: as long as the numbers of the frames come from one window, the scan finds
the first of the oldest and the first of the newest, wherever in the area the numbering begins. -/

namespace PicoWLogger
open FlashLogStorage

section Extremes
variable {α β : Type} [LinearOrder β] {f : α → β} {items : List α} {item : α}

/-- The maximum is the first of its kind. -/
theorem argmax_split (maximum : item ∈ items.argmax f) :
    ∃ front back, items = front ++ item :: back ∧ (∀ other ∈ front, f other < f item) ∧ ∀ other ∈ back, f other ≤ f item := by
  induction items using List.reverseRecOn generalizing item with
  | nil => cases maximum
  | append_singleton items last ih =>
    rw [List.argmax_concat] at maximum
    cases before : items.argmax f with
    | none =>
      rw [List.argmax_eq_none.mp before] at maximum ⊢
      cases maximum
      exact ⟨[], [], rfl, List.forall_mem_nil _, List.forall_mem_nil _⟩
    | some best =>
      rw [before] at maximum
      obtain ⟨front, back, split', smaller, noGreater⟩ := ih before
      by_cases greater : f best < f last
      · simp only [greater, ↓reduceIte, Option.mem_def, Option.some.injEq] at maximum
        subst maximum
        refine ⟨items, [], rfl, fun other member => ?_, List.forall_mem_nil _⟩
        exact (List.le_of_mem_argmax member before).trans_lt greater
      · simp only [greater, ↓reduceIte, Option.mem_def, Option.some.injEq] at maximum
        subst maximum
        refine ⟨front, back ++ [last], by rw [split', List.append_assoc, List.cons_append], smaller, ?_⟩
        exact List.forall_mem_append.mpr ⟨noGreater, List.forall_mem_singleton.mpr (not_lt.mp greater)⟩

theorem argmin_split (minimum : item ∈ items.argmin f) :
    ∃ front back, items = front ++ item :: back ∧ (∀ other ∈ front, f item < f other) ∧ ∀ other ∈ back, f item ≤ f other :=
  argmax_split (β := βᵒᵈ) minimum

end Extremes

namespace FlashLogStorage
variable {s : FlashLogStorage}

/-- The first scanned of the frames that are least in serial order. -/
def FirstOldest (hits : List (Scanner.Hit LogFrameHeader)) (oldest : Scanner.Hit LogFrameHeader) : Prop :=
  ∃ front back, hits = front ++ oldest :: back ∧ (∀ hit ∈ front, isSeqNewer hit.item.seq oldest.item.seq) ∧
    ∀ hit ∈ back, ¬ isSeqNewer oldest.item.seq hit.item.seq

/-- The first scanned of the frames that are greatest in serial order. -/
def FirstNewest (hits : List (Scanner.Hit LogFrameHeader)) (newest : Scanner.Hit LogFrameHeader) : Prop :=
  ∃ front back, hits = front ++ newest :: back ∧ (∀ hit ∈ front, isSeqNewer newest.item.seq hit.item.seq) ∧
    ∀ hit ∈ back, ¬ isSeqNewer hit.item.seq newest.item.seq

theorem isSeqNewer_iff_offset {base a b : UInt32} (left : SerialOrder.offset base a < 2 ^ 31)
    (right : SerialOrder.offset base b < 2 ^ 31) :
    isSeqNewer a b = true ↔ SerialOrder.offset base b < SerialOrder.offset base a := by
  rw [isSeqNewer, decide_eq_true_eq, SerialOrder.newer_iff_offset left right]

section Window
variable {base : UInt32} {hits : List (Scanner.Hit LogFrameHeader)} {hit : Scanner.Hit LogFrameHeader}

theorem firstOldest_of_argmin (window : ∀ hit ∈ hits, SerialOrder.offset base hit.item.seq < 2 ^ 31)
    (minimum : hit ∈ hits.argmin fun hit => SerialOrder.offset base hit.item.seq) : FirstOldest hits hit := by
  have here := window hit (List.argmin_mem minimum)
  obtain ⟨front, back, rfl, greater, noSmaller⟩ := argmin_split minimum
  refine ⟨front, back, rfl, fun other member => ?_, fun other member => ?_⟩
  · exact (isSeqNewer_iff_offset (window other (by simp [member])) here).mpr (greater other member)
  · rw [isSeqNewer_iff_offset here (window other (by simp [member]))]
    exact not_lt.mpr (noSmaller other member)

theorem firstNewest_of_argmax (window : ∀ hit ∈ hits, SerialOrder.offset base hit.item.seq < 2 ^ 31)
    (maximum : hit ∈ hits.argmax fun hit => SerialOrder.offset base hit.item.seq) : FirstNewest hits hit := by
  have here := window hit (List.argmax_mem maximum)
  obtain ⟨front, back, rfl, smaller, noGreater⟩ := argmax_split maximum
  refine ⟨front, back, rfl, fun other member => ?_, fun other member => ?_⟩
  · exact (isSeqNewer_iff_offset here (window other (by simp [member]))).mpr (smaller other member)
  · rw [isSeqNewer_iff_offset (window other (by simp [member])) here]
    exact not_lt.mpr (noGreater other member)

/-- One count behind the newest is still ahead of every frame of the window. -/
theorem isSeqNewer_restored {width : Nat} (narrow : width < 2 ^ 31)
    (window : ∀ hit ∈ hits, SerialOrder.offset base hit.item.seq < width)
    (maximum : hit ∈ hits.argmax fun hit => SerialOrder.offset base hit.item.seq) {other : Scanner.Hit LogFrameHeader}
    (member : other ∈ hits) : isSeqNewer (hit.item.seq + 1) other.item.seq = true := by
  have here := window hit (List.argmax_mem maximum)
  have there := window other member
  have least := List.le_of_mem_argmax member maximum
  have next : SerialOrder.offset base (hit.item.seq + 1) = SerialOrder.offset base hit.item.seq + 1 := by
    simp only [SerialOrder.offset, UInt32.toNat_sub, UInt32.toNat_add, UInt32.toNat_one] at here ⊢
    omega
  have ahead : SerialOrder.offset base (hit.item.seq + 1) < 2 ^ 31 := by omega
  rw [isSeqNewer_iff_offset ahead (by omega), next]
  exact Nat.lt_succ_of_le least

end Window

end FlashLogStorage

/-- Whatever the log area holds, when the numbers of the frames that greedy scanning finds come from fewer than
2^31 consecutive values the recovery counts them, knows the first of the oldest and the first of the newest,
and the number that `main` goes on with is newer than all of them. -/
theorem recovery_scan_correct {s : FlashLogStorage} (config : isConfigValid s.config = true) (base : UInt32) {width : Nat}
    (narrow : width < 2 ^ 31) (window : ∀ hit ∈ s.found, SerialOrder.offset base hit.item.seq < width) :
    let recovered := s.rebuildIndexFromFlash
    recovered.validFrameCount = s.found.length ∧
      s.config.startAddr ≤ recovered.writeAddr ∧ recovered.writeAddr < s.config.endAddr ∧
      (s.found ≠ [] → ∃ oldest newest, FirstOldest s.found oldest ∧ FirstNewest s.found newest ∧
        recovered.oldestAddr = oldest.addr ∧ recovered.newestAddr = newest.addr ∧
        recovered.newestSeq = newest.item.seq ∧
        ∀ logger : EventLogger, (logger.restoreSeq recovered).seq = newest.item.seq + 1 ∧
          ∀ hit ∈ s.found, isSeqNewer (logger.restoreSeq recovered).seq hit.item.seq) := by
  intro recovered
  have sameConfig : recovered.config = s.config := by
    simp only [recovered]
    rw [rebuildIndexFromFlash_keeps]
    rfl
  have sameFound : recovered.found = s.found := by
    simp only [recovered]
    rw [rebuildIndexFromFlash_keeps]
    rfl
  have located : Located recovered := rebuild_located config
  refine ⟨located.count.trans (congrArg List.length sameFound), sameConfig ▸ located.above, sameConfig ▸ located.below,
    fun some' => ?_⟩
  have half : ∀ hit ∈ s.found, SerialOrder.offset base hit.item.seq < 2 ^ 31 :=
    fun hit member => (window hit member).trans narrow
  obtain ⟨oldest, minimum, newest, maximum, rebuilt⟩ := rebuild_some base rfl some' half
  obtain ⟨rest, isRest⟩ : ∃ rest, s.withIndex (s.scannedIndex oldest newest s.found.length) = rest := ⟨_, rfl⟩
  have index : recovered.index = { rest.index with writeAddr := rest.escapeDirty.writeAddr } := by
    rw [← escapeDirty_index, ← isRest]
    exact congrArg FlashLogStorage.index rebuilt
  have newestSeq : recovered.newestSeq = newest.item.seq := by
    rw [← isRest] at index
    exact congrArg Index.newestSeq index
  have counted : recovered.validFrameCount > 0 := by
    rw [located.count, sameFound]
    exact List.length_pos_iff.mpr some'
  have restored (logger : EventLogger) : (logger.restoreSeq recovered).seq = newest.item.seq + 1 := by
    rw [EventLogger.restoreSeq, if_pos counted, newestSeq]
    rfl
  refine ⟨oldest, newest, firstOldest_of_argmin half minimum, firstNewest_of_argmax half maximum, ?_, ?_, newestSeq,
    fun logger => ⟨restored logger, fun hit member => ?_⟩⟩
  · rw [← isRest] at index
    exact congrArg Index.oldestAddr index
  · rw [← isRest] at index
    exact congrArg Index.newestAddr index
  · rw [restored]
    exact isSeqNewer_restored narrow window maximum member

/-- A scan of two frames at the start of an area that is erased behind them. -/
theorem found_pair (first second : Record) (room : first.size + second.size ≤ 4096) :
    (holding ⟨0, 4096⟩ (first.frame ++ second.frame)).found =
      [⟨0, first.header, first.size⟩, ⟨first.size, second.header, second.size⟩] := by
  obtain ⟨s, isS⟩ : ∃ s, holding ⟨0, 4096⟩ (first.frame ++ second.frame) = s := ⟨_, rfl⟩
  have area : s.config = ⟨0, 4096⟩ := by
    rw [← isS]
    rfl
  have config : isConfigValid s.config = true := by
    rw [area]
    decide
  have front := cellsFrom_holding_append ⟨0, 4096⟩ [] first.frame second.frame
  have back := cellsFrom_holding_append ⟨0, 4096⟩ first.frame second.frame []
  rw [List.nil_append, List.length_nil, isS, first.length_frame] at front
  rw [List.append_nil, isS, first.length_frame, second.length_frame] at back
  have atFront : s.isValidFrameAt 0 = some (first.header, first.size) := by
    refine (isValidFrameAt_iff config _ _ _).mpr ⟨?_, ?_, first, rfl, rfl, front⟩
    · rw [area]
    · rw [area]
      change 0 + first.size ≤ 4096
      omega
  have atBack : s.isValidFrameAt first.size = some (second.header, second.size) := by
    refine (isValidFrameAt_iff config _ _ _).mpr ⟨?_, ?_, second, rfl, rfl, back⟩
    · rw [area]
      exact Nat.zero_le _
    · rw [area]
      exact room
  have behind : s.scanner.hits 4096 (first.size + second.size) = [] := by
    refine hits_blank config fun a above below => ?_
    rw [← isS]
    refine List.getD_eq_default _ _ ?_
    rw [List.length_append, first.length_frame, second.length_frame]
    exact above
  have firstPositive := first.size_pos
  have secondPositive := second.size_pos
  have scan : s.found = s.scanner.hits 4096 0 := by rw [FlashLogStorage.found, area]
  rw [isS, scan, Scanner.hits_hit (by decide) atFront, Nat.zero_add, Scanner.hits_hit (by omega) atBack, behind]

/-- Two frames, the wrap of the numbering between them, the newer one in front. -/
theorem recovery_scan_correct_wrapped :
    let newer := sampleRecord 0 5 (by decide)
    let older := sampleRecord 0xFFFFFFFF 5 (by decide)
    let s := holding ⟨0, 4096⟩ (newer.frame ++ older.frame)
    s.rebuildIndexFromFlash.validFrameCount = 2 ∧
      ∀ hit ∈ s.found, isSeqNewer ((EventLogger.new 0).restoreSeq s.rebuildIndexFromFlash).seq hit.item.seq := by
  intro newer older s
  have found : s.found = [⟨0, newer.header, newer.size⟩, ⟨newer.size, older.header, older.size⟩] :=
    found_pair newer older (by decide)
  have seqs : newer.header.seq = 0 ∧ older.header.seq = 0xFFFFFFFF := ⟨rfl, rfl⟩
  have config : isConfigValid s.config = true := by decide
  -- only these facts are needed from here on
  clear_value s newer older
  have window : ∀ hit ∈ s.found, SerialOrder.offset 0xFFFFFFFF hit.item.seq < 2 := by
    rw [found, List.forall_mem_cons, List.forall_mem_singleton, seqs.1, seqs.2]
    decide
  obtain ⟨count, _, _, extremes⟩ := recovery_scan_correct config 0xFFFFFFFF (by decide) window
  obtain ⟨_, _, _, _, _, _, _, restored⟩ := extremes (by rw [found]; exact List.cons_ne_nil _ _)
  exact ⟨count.trans (by rw [found]; rfl), (restored (EventLogger.new 0)).2⟩

end PicoWLogger
