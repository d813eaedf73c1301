import PicoWLogger.Proofs.AppendEffect
import PicoWLogger.Lib.Selection
import Mathlib.Data.List.MinMax

/-! What the recovery scan computes: the number of frames, the oldest and the newest by
serial order, and a write address behind the newest that is not known to be dirty. -/

namespace PicoWLogger
open FlashLogStorage

namespace FlashLogStorage
variable {s : FlashLogStorage}

theorem isErasedAt_iff (config : isConfigValid s.config = true) (addr : Nat) :
    s.isErasedAt addr = true ↔
      s.config.startAddr ≤ addr ∧ addr < s.config.endAddr ∧ s.flash.cells addr = 0xFF := by
  obtain ⟨_, _, flashEnd, _⟩ := (isConfigValid_iff _).mp config
  rw [isErasedAt]
  split
  next outside =>
    simp only [Bool.false_eq_true, false_iff]
    omega
  next inside =>
    have above : s.config.startAddr ≤ addr := by omega
    have below : addr < s.config.endAddr := by omega
    have cell : s.flash.read addr 1 = some (s.flash.cellsFrom addr 1) := FlashDriver.read_inside (by omega) (by omega)
    simp [cell, FlashDriver.cellsFrom, above, below]

theorem escapeDirty_clean (clean : s.isErasedAt s.writeAddr = true) : s.escapeDirty = s := by
  rw [escapeDirty, clean]
  rfl

theorem escapeDirty_dirty (dirty : s.isErasedAt s.writeAddr = false) :
    s.escapeDirty = { s with writeAddr := s.wrapAddress (nextSectorAddress s.writeAddr) } := by
  rw [escapeDirty, dirty]
  rfl

theorem escapeDirty_index (s : FlashLogStorage) : s.escapeDirty.index = { s.index with writeAddr := s.escapeDirty.writeAddr } := by
  rw [escapeDirty]
  split <;> rfl

/-- The index of an area without frames, before a dirty start is escaped. -/
def startIndex (config : Config) : Index where
  writeAddr := config.startAddr
  oldestAddr := config.startAddr
  newestAddr := config.startAddr
  newestSeq := 0
  validFrameCount := 0

theorem rebuild_none (nothing : s.scanner.hits s.config.endAddr s.config.startAddr = []) :
    s.rebuildIndexFromFlash = (s.withIndex (startIndex s.config)).escapeDirty := by
  have missed : s.rebuildScan.found = false := by
    rw [rebuildScan, Scanner.fold_eq_foldl, nothing, List.foldl_nil]
  simp only [rebuildIndexFromFlash, missed, Bool.false_eq_true, ↓reduceIte]
  rfl

/-- The index that describes a scan with these extremes. -/
def scannedIndex (s : FlashLogStorage) (oldest newest : Scanner.Hit LogFrameHeader) (count : Nat) : Index where
  writeAddr := s.wrapAddress (u32 (newest.addr + newest.width))
  oldestAddr := oldest.addr
  newestAddr := newest.addr
  newestSeq := newest.item.seq
  validFrameCount := count

/-- What the scan takes for the newest frame so far once it has passed `hit`. -/
def newerHit (best hit : Scanner.Hit LogFrameHeader) : Scanner.Hit LogFrameHeader :=
  Selection.pick (fun hit best => isSeqNewer hit.item.seq best.item.seq) best hit

def olderHit (best hit : Scanner.Hit LogFrameHeader) : Scanner.Hit LogFrameHeader :=
  Selection.pick (fun hit best => isSeqNewer best.item.seq hit.item.seq) best hit

private theorem foldl_visitFrame (first : Scanner.Hit LogFrameHeader) (rest : List (Scanner.Hit LogFrameHeader))
    (acc : RebuildScan) (unfound : acc.found = false) (zero : acc.count = 0) :
    let oldest := rest.foldl olderHit first
    let newest := rest.foldl newerHit first
    (first :: rest).foldl s.visitFrame acc =
      { found := true
        oldestSeq := oldest.item.seq, oldestAddr := oldest.addr
        newestSeq := newest.item.seq, newestAddr := newest.addr
        newestNextAddr := s.wrapAddress (u32 (newest.addr + newest.width))
        count := rest.length + 1 } := by
  induction rest using List.reverseRecOn with
  | nil =>
    simp only [List.foldl_cons, List.foldl_nil, visitFrame, unfound, zero, Bool.not_false, ↓reduceIte]
    rfl
  | append_singleton rest hit ih =>
    intro oldest newest
    rw [← List.cons_append, List.foldl_append, ih, List.length_append]
    simp only [oldest, newest, List.foldl_append, List.foldl_cons, List.foldl_nil, visitFrame, Bool.not_true, Bool.false_eq_true,
      ↓reduceIte]
    rw [newerHit, olderHit, Selection.pick, Selection.pick]
    split
    all_goals
      dsimp only
      split <;> rfl

theorem rebuild_cons {first : Scanner.Hit LogFrameHeader} {rest : List (Scanner.Hit LogFrameHeader)}
    (scanned : s.scanner.hits s.config.endAddr s.config.startAddr = first :: rest) :
    s.rebuildIndexFromFlash =
      (s.withIndex (s.scannedIndex (rest.foldl olderHit first) (rest.foldl newerHit first) (rest.length + 1))).escapeDirty := by
  have scan := Scanner.fold_eq_foldl (S := s.scanner) s.config.endAddr s.visitFrame s.config.startAddr
    { found := false
      oldestSeq := 0, oldestAddr := s.config.startAddr
      newestSeq := 0, newestAddr := s.config.startAddr, newestNextAddr := s.config.startAddr
      count := 0 }
  rw [scanned, foldl_visitFrame first rest _ rfl rfl] at scan
  rw [rebuildIndexFromFlash, rebuildScan, scan]
  rfl

section Window
variable {base : UInt32} {first : Scanner.Hit LogFrameHeader} {rest : List (Scanner.Hit LogFrameHeader)}

private theorem newest_argmax (window : ∀ hit ∈ first :: rest, SerialOrder.offset base hit.item.seq < 2 ^ 31) :
    rest.foldl newerHit first ∈ (first :: rest).argmax fun hit => SerialOrder.offset base hit.item.seq := by
  induction rest using List.reverseRecOn with
  | nil => rfl
  | append_singleton rest hit ih =>
    have isNewest := ih fun other member => window other (by
      rw [← List.cons_append]
      exact List.mem_append_left _ member)
    have here := window hit (by simp)
    have high := window (rest.foldl newerHit first) (by
      rw [← List.cons_append]
      exact List.mem_append_left _ (List.argmax_mem isNewest))
    have later : isSeqNewer hit.item.seq (rest.foldl newerHit first).item.seq = true ↔
        SerialOrder.offset base (rest.foldl newerHit first).item.seq < SerialOrder.offset base hit.item.seq := by
      rw [isSeqNewer, decide_eq_true_eq, SerialOrder.newer_iff_offset here high]
    have maximum := List.argmax_concat (fun hit => SerialOrder.offset base hit.item.seq) hit (first :: rest)
    rw [Option.mem_def.mp isNewest] at maximum
    rw [← List.cons_append, maximum, List.foldl_append, List.foldl_cons, List.foldl_nil, newerHit, Selection.pick]
    simp only [later]
    split <;> rfl

private theorem oldest_argmin (window : ∀ hit ∈ first :: rest, SerialOrder.offset base hit.item.seq < 2 ^ 31) :
    rest.foldl olderHit first ∈ (first :: rest).argmin fun hit => SerialOrder.offset base hit.item.seq := by
  induction rest using List.reverseRecOn with
  | nil => rfl
  | append_singleton rest hit ih =>
    have isOldest := ih fun other member => window other (by
      rw [← List.cons_append]
      exact List.mem_append_left _ member)
    have here := window hit (by simp)
    have low := window (rest.foldl olderHit first) (by
      rw [← List.cons_append]
      exact List.mem_append_left _ (List.argmin_mem isOldest))
    have older : isSeqNewer (rest.foldl olderHit first).item.seq hit.item.seq = true ↔
        SerialOrder.offset base hit.item.seq < SerialOrder.offset base (rest.foldl olderHit first).item.seq := by
      rw [isSeqNewer, decide_eq_true_eq, SerialOrder.newer_iff_offset low here]
    have minimum := List.argmin_concat (fun hit => SerialOrder.offset base hit.item.seq) hit (first :: rest)
    rw [Option.mem_def.mp isOldest] at minimum
    rw [← List.cons_append, minimum, List.foldl_append, List.foldl_cons, List.foldl_nil, olderHit, Selection.pick]
    simp only [older]
    split <;> rfl

end Window

/-- With the sequence numbers inside one window the scan finds the extremes. -/
theorem rebuild_some (base : UInt32) {hits : List (Scanner.Hit LogFrameHeader)}
    (scanned : s.scanner.hits s.config.endAddr s.config.startAddr = hits) (some' : hits ≠ [])
    (window : ∀ hit ∈ hits, SerialOrder.offset base hit.item.seq < 2 ^ 31) :
    ∃ oldest ∈ hits.argmin fun hit => SerialOrder.offset base hit.item.seq,
      ∃ newest ∈ hits.argmax fun hit => SerialOrder.offset base hit.item.seq,
        s.rebuildIndexFromFlash = (s.withIndex (s.scannedIndex oldest newest hits.length)).escapeDirty := by
  obtain ⟨first, rest, shape⟩ := List.exists_cons_of_ne_nil some'
  rw [shape] at scanned window ⊢
  exact ⟨_, oldest_argmin window, _, newest_argmax window, rebuild_cons scanned⟩

theorem oldest_mem (first : Scanner.Hit LogFrameHeader) (rest : List (Scanner.Hit LogFrameHeader)) :
    rest.foldl olderHit first ∈ first :: rest := Selection.foldl_pick_mem first rest

theorem newest_mem (first : Scanner.Hit LogFrameHeader) (rest : List (Scanner.Hit LogFrameHeader)) :
    rest.foldl newerHit first ∈ first :: rest := Selection.foldl_pick_mem first rest

theorem rebuild_mem {hits : List (Scanner.Hit LogFrameHeader)}
    (scanned : s.scanner.hits s.config.endAddr s.config.startAddr = hits) (some' : hits ≠ []) :
    ∃ oldest ∈ hits, ∃ newest ∈ hits,
      s.rebuildIndexFromFlash = (s.withIndex (s.scannedIndex oldest newest hits.length)).escapeDirty := by
  obtain ⟨first, rest, shape⟩ := List.exists_cons_of_ne_nil some'
  rw [shape] at scanned ⊢
  exact ⟨_, oldest_mem first rest, _, newest_mem first rest, rebuild_cons scanned⟩

/-- The object as `init` hands it to the recovery scan. -/
def started (s : FlashLogStorage) : FlashLogStorage :=
  { s.withIndex (startIndex s.config) with mutexCreated := true, initialized := true }

theorem init_eq (config : isConfigValid s.config = true) : s.init true = (true, s.started.rebuildIndexFromFlash) := by
  simp only [init, config, Bool.not_true, Bool.and_false, Bool.false_eq_true, ↓reduceIte]
  rfl

end FlashLogStorage

end PicoWLogger
