import PicoWLogger.PowerCut
import PicoWLogger.Proofs.RingIndex

/-! Restarting a log that was never interrupted. The recovery scan finds the index that
the appends maintained, except that it leaves a sector start whose sector still holds
old frames, which `append` would have erased. -/

namespace PicoWLogger
open FlashLogStorage

theorem restart_rebuilds {s : FlashLogStorage} (config : isConfigValid s.config = true) :
    s.restart = (FlashLogStorage.new s.flash s.config s.sharedIo).started.rebuildIndexFromFlash := by
  have started := init_eq (s := FlashLogStorage.new s.flash s.config s.sharedIo) config
  rw [restart, started]

theorem restart_flash {s : FlashLogStorage} (config : isConfigValid s.config = true) : s.restart.flash = s.flash := by
  rw [restart_rebuilds config, rebuildIndexFromFlash_keeps]
  rfl

theorem restart_config {s : FlashLogStorage} (config : isConfigValid s.config = true) : s.restart.config = s.config := by
  rw [restart_rebuilds config, rebuildIndexFromFlash_keeps]
  rfl

theorem placed_last {addr : Nat} {records : List Record} {last : Nat × Record}
    (member : last ∈ (placed addr records).getLast?) : last.1 + last.2.size = addr + (frameBytes records).length := by
  cases records using List.reverseRecOn with
  | nil => cases member
  | append_singleton front record =>
    simp only [placed_append, placed, List.getLast?_concat, Option.mem_some_iff] at member
    subst member
    simp only [frameBytes_append, frameBytes_cons, frameBytes_nil, List.append_nil, List.length_append,
      Record.length_frame]
    omega

theorem map_seq_placed (addr : Nat) (records : List Record) :
    (placed addr records).map (fun place => place.2.seq) = records.map Record.seq := by
  rw [← map_snd_placed addr records, List.map_map, map_snd_placed]
  rfl

section Extremes
variable {live : List (Nat × Record)} {base : UInt32} {hits : List (Scanner.Hit LogFrameHeader)}
  {hit : Scanner.Hit LogFrameHeader}

private theorem argmin_first (found : hits.Perm (live.map hitOf))
    (increasing : live.Pairwise fun a b => SerialOrder.offset base a.2.seq < SerialOrder.offset base b.2.seq)
    (least : hit ∈ hits.argmin fun hit => SerialOrder.offset base hit.item.seq) {first : Nat × Record}
    (head : first ∈ live.head?) : hit = hitOf first := by
  cases live with
  | nil => cases head
  | cons other rest =>
    cases head
    obtain ⟨place, member, rfl⟩ := List.mem_map.mp (found.mem_iff.mp (List.argmin_mem least))
    rcases List.mem_cons.mp member with rfl | later
    · rfl
    · have less := (List.pairwise_cons.mp increasing).1 place later
      have bound := List.le_of_mem_argmin (found.mem_iff.mpr (List.mem_map_of_mem List.mem_cons_self)) least
      exact absurd less (not_lt.mpr bound)

private theorem argmax_last (found : hits.Perm (live.map hitOf))
    (increasing : live.Pairwise fun a b => SerialOrder.offset base a.2.seq < SerialOrder.offset base b.2.seq)
    (greatest : hit ∈ hits.argmax fun hit => SerialOrder.offset base hit.item.seq) {last : Nat × Record}
    (end' : last ∈ live.getLast?) : hit = hitOf last := by
  cases live using List.reverseRecOn with
  | nil => cases end'
  | append_singleton front other =>
    rw [List.getLast?_concat] at end'
    cases end'
    obtain ⟨place, member, rfl⟩ := List.mem_map.mp (found.mem_iff.mp (List.argmax_mem greatest))
    rcases List.mem_append.mp member with earlier | same
    · have less := (List.pairwise_append.mp increasing).2.2 place earlier last List.mem_cons_self
      have bound := List.le_of_mem_argmax (found.mem_iff.mpr
        (List.mem_map_of_mem (List.mem_append_right front List.mem_cons_self))) greatest
      exact absurd less (not_lt.mpr bound)
    · rw [List.mem_singleton.mp same]

end Extremes

namespace Represents
variable {s : FlashLogStorage} {ring : RingLog}

private theorem places_nonempty (config : Config) (filled : 0 < ring.used ring.current) :
    ring.places config ring.current ≠ [] := by
  intro none'
  have empty : ring.records ring.current = [] := by
    rw [← map_snd_placed (config.base ring.current) (ring.records ring.current)]
    exact congrArg (List.map Prod.snd) none'
  simp [RingLog.used, empty] at filled

private theorem live_current (represents : Represents s ring) :
    ring.live s.config = RingOrder.others s.config.sectors ring.current (ring.places s.config) ++
      ring.places s.config ring.current := RingOrder.unroll_next represents.current _

theorem write_behind (represents : Represents s ring) (filled : 0 < ring.used ring.current) {last : Nat × Record}
    (end' : last ∈ (ring.live s.config).getLast?) : s.wrapAddress (u32 (last.1 + last.2.size)) = s.writeAddr := by
  have config := represents.imaged.config
  obtain ⟨_, _, _, flashEnd⟩ := Config.shape config
  have sector := Config.base_inside config represents.current
  have fits := (represents.imaged.holds _ represents.current).fits
  rw [Sector.bytes_whole] at fits
  rw [represents.live_current, List.getLast?_append_of_ne_nil _ (places_nonempty s.config filled)] at end'
  have behind : last.1 + last.2.size = s.config.base ring.current + ring.used ring.current := placed_last end'
  have wrap : u32 (last.1 + last.2.size) = s.config.base ring.current + ring.used ring.current := by
    rw [behind, u32]
    change _ ≤ 4096 at fits
    simp only [RingLog.used] at *
    omega
  rw [wrap, represents.write]
  by_cases part : ring.used ring.current < 4096
  · rw [if_pos ⟨filled, part⟩, wrapAddress, if_neg (by omega)]
  · have full : ring.used ring.current = 4096 := Nat.le_antisymm fits (not_lt.mp part)
    rw [if_neg (by omega), full]
    exact wrapAddress_next config represents.current

theorem live_nonempty (represents : Represents s ring) (filled : 0 < ring.used ring.current) : ring.live s.config ≠ [] := by
  rw [represents.live_current]
  exact List.append_ne_nil_of_right_ne_nil _ (places_nonempty s.config filled)

theorem found_live (represents : Represents s ring) {u : FlashLogStorage} (sameConfig : u.config = s.config)
    (sameCells : u.flash.cells = s.flash.cells) :
    (u.scanner.hits u.config.endAddr u.config.startAddr).Perm ((ring.live s.config).map hitOf) := by
  have imaged : Imaged u fun k => .whole (ring.records k) :=
    represents.imaged.congr sameConfig fun _ _ _ => by rw [sameCells]
  rw [imaged.hits, sameConfig]
  exact ((live_perm s.config ring).map hitOf).symm

/-- A recovery that finds the oldest and the newest frame restores the index, up to the
escape from a dirty address. -/
theorem recovered_index (represents : Represents s ring) (filled : 0 < ring.used ring.current) {u : FlashLogStorage}
    (sameConfig : u.config = s.config) (sameCells : u.flash.cells = s.flash.cells) {first last : Nat × Record}
    (isFirst : first ∈ (ring.live s.config).head?) (isLast : last ∈ (ring.live s.config).getLast?) {count : Nat}
    (counted : count = (ring.live s.config).length)
    (rebuilt : u.rebuildIndexFromFlash =
      (u.withIndex (u.scannedIndex (hitOf first) (hitOf last) count)).escapeDirty) :
    u.rebuildIndexFromFlash.index =
      { s.index with
        writeAddr := if s.isErasedAt s.writeAddr then s.writeAddr
          else s.wrapAddress (nextSectorAddress s.writeAddr) } := by
  have sameWrap : u.wrapAddress = s.wrapAddress := by
    funext addr
    simp only [wrapAddress, sameConfig]
  obtain ⟨newestAddr, newestSeq⟩ := represents.newest _ isLast
  have index : u.scannedIndex (hitOf first) (hitOf last) count = s.index := by
    have behind := represents.write_behind filled isLast
    simp only [scannedIndex, FlashLogStorage.index, hitOf, sameWrap, counted, represents.count,
      represents.oldest _ isFirst, newestAddr, newestSeq, behind]
    rfl
  have probe : (u.withIndex s.index).isErasedAt (u.withIndex s.index).writeAddr = s.isErasedAt s.writeAddr := by
    simp only [isErasedAt, withIndex, FlashDriver.read, FlashDriver.cellsFrom, sameConfig, sameCells,
      FlashLogStorage.index]
  rw [rebuilt, index]
  cases erased : s.isErasedAt s.writeAddr with
  | true =>
    rw [escapeDirty_clean (probe.trans erased)]
    rfl
  | false =>
    rw [escapeDirty_dirty (probe.trans erased)]
    simp only [withIndex, wrapAddress, sameConfig, FlashLogStorage.index, Bool.false_eq_true, ↓reduceIte]

/-- After a restart the index is the old one, up to the escape from a dirty address. -/
theorem restart_eq (represents : Represents s ring) (filled : 0 < ring.used ring.current)
    (ascending : SerialOrder.Ascending ((ring.live s.config).map fun place => place.2.seq)) :
    s.restart.index =
      { s.index with
        writeAddr := if s.isErasedAt s.writeAddr then s.writeAddr
          else s.wrapAddress (nextSectorAddress s.writeAddr) } := by
  have config := represents.imaged.config
  obtain ⟨fresh, isFresh⟩ : ∃ fresh, (FlashLogStorage.new s.flash s.config s.sharedIo).started = fresh := ⟨_, rfl⟩
  have sameConfig : fresh.config = s.config := by rw [← isFresh]; rfl
  have sameCells : fresh.flash.cells = s.flash.cells := by rw [← isFresh]; rfl
  have restarted : s.restart = fresh.rebuildIndexFromFlash := by rw [restart_rebuilds config, isFresh]
  have found := represents.found_live sameConfig sameCells
  obtain ⟨base, window, increasing⟩ := ascending.offsets
  rw [List.pairwise_map] at increasing
  have some' := represents.live_nonempty filled
  obtain ⟨oldest, isOldest, newest, isNewest, rebuilt⟩ := rebuild_some base rfl
    (fun none' => some' (List.map_eq_nil_iff.mp (found.symm.trans (.of_eq none')).eq_nil)) (fun hit member => by
      obtain ⟨place, live, rfl⟩ := List.mem_map.mp (found.mem_iff.mp member)
      exact window _ (List.mem_map_of_mem live))
  have isFirst := List.head_mem_head? some'
  have isLast := List.getLast_mem_getLast? some'
  rw [argmin_first found increasing isOldest isFirst, argmax_last found increasing isNewest isLast] at rebuilt
  rw [restarted]
  exact represents.recovered_index filled sameConfig sameCells isFirst isLast
    (found.length_eq.trans (List.length_map _)) rebuilt

theorem write_position (represents : Represents s ring) :
    (∃ k < s.config.sectors, s.writeAddr = s.config.base k) ∨
      isSectorStart s.writeAddr = false ∧ s.isErasedAt s.writeAddr = true := by
  have config := represents.imaged.config
  have write := represents.write
  by_cases part : 0 < ring.used ring.current ∧ ring.used ring.current < 4096
  · rw [if_pos part] at write
    have sector := Config.base_inside config represents.current
    have held := represents.imaged.holds _ represents.current
    rw [Sector.bytes_whole] at held
    have cell : s.flash.cells s.writeAddr = 0xFF := held.erased (Nat.le_of_eq write.symm) (by omega)
    refine .inr ⟨?_, (isErasedAt_iff config _).mpr ⟨by omega, by omega, cell⟩⟩
    simp only [isSectorStart, SECTOR_SIZE, decide_eq_false_iff_not]
    omega
  · rw [if_neg part] at write
    exact .inl ⟨_, Config.next_lt config _, write⟩

/-- Leaving the write address means leaving a sector start in a ring of several sectors. -/
theorem escape_iff (represents : Represents s ring) :
    (if s.isErasedAt s.writeAddr then s.writeAddr else s.wrapAddress (nextSectorAddress s.writeAddr)) = s.writeAddr ↔
      ¬ (1 < s.config.sectors ∧ isSectorStart s.writeAddr = true ∧ s.flash.cells s.writeAddr ≠ 0xFF) := by
  have config := represents.imaged.config
  rcases represents.write_position with ⟨k, inside, write⟩ | ⟨middle, erased⟩
  · have sector := Config.base_inside config inside
    have start : isSectorStart s.writeAddr = true := by
      simp only [isSectorStart, SECTOR_SIZE, decide_eq_true_eq]
      omega
    have probe := isErasedAt_iff config s.writeAddr
    by_cases cell : s.flash.cells s.writeAddr = 0xFF
    · rw [if_pos (probe.mpr ⟨by omega, by omega, cell⟩)]
      simp [cell]
    · have moved : nextSectorAddress s.writeAddr = s.config.base k + 4096 :=
        nextSectorAddress_inside config inside (by omega) (by omega)
      rw [if_neg fun erased => cell (probe.mp erased).2.2, moved, wrapAddress_next config inside, write]
      simp only [← write, start, cell, ne_eq, not_false_eq_true, and_self, and_true, not_lt]
      rcases Nat.lt_or_ge (k + 1) s.config.sectors with more | last
      · have next : s.config.next k = k + 1 := Nat.mod_eq_of_lt more
        rw [next]
        simp only [Config.base] at write ⊢
        omega
      · have next : s.config.next k = 0 := by
          rw [Config.next, show k + 1 = s.config.sectors by omega, Nat.mod_self]
        rw [next]
        simp only [Config.base] at write ⊢
        omega
  · rw [if_pos erased, middle]
    simp

theorem restart_iff (represents : Represents s ring) (filled : 0 < ring.used ring.current)
    (ascending : SerialOrder.Ascending ((ring.live s.config).map fun place => place.2.seq)) :
    s.restart.index = s.index ↔
      ¬ (1 < s.config.sectors ∧ isSectorStart s.writeAddr = true ∧ s.flash.cells s.writeAddr ≠ 0xFF) := by
  rw [represents.restart_eq filled ascending, ← represents.escape_iff]
  simp [Index.ext_iff, FlashLogStorage.index]

end Represents

theorem live_ascending {s : FlashLogStorage} {ring : RingLog} (represents : Represents s ring) (working : s.Working)
    (nothing : ring.live s.config = []) {records : List Record}
    (ascending : SerialOrder.Ascending (records.map Record.seq)) :
    SerialOrder.Ascending (((ring.appendAll s.config records).live s.config).map fun place => place.2.seq) := by
  have suffix := live_suffix represents working nothing records
  have seqs : ((ring.appendAll s.config records).live s.config).map (fun place => place.2.seq) =
      (((ring.appendAll s.config records).live s.config).map Prod.snd).map Record.seq := by
    rw [List.map_map]
    rfl
  rw [seqs]
  exact ascending.sublist (suffix.sublist.map _)

/-- Restart is transparent exactly when it does not leave a sector start behind: for every
log of built frames with ascending numbers, the recovery scan finds the index that the
appends maintained unless the area has several sectors and the write address is a sector
start whose sector still holds frames. -/
theorem restart_index_iff {s : FlashLogStorage} (config : isConfigValid s.config = true) (working : s.Working)
    (erased : s.Erased) (records : List Record) (ascending : SerialOrder.Ascending (records.map Record.seq)) :
    let running := (s.init true).2.appendAll records
    running.restart.index = running.index ↔
      ¬ (1 < s.config.sectors ∧ isSectorStart running.writeAddr = true ∧ running.flash.cells running.writeAddr ≠ 0xFF) := by
  intro running
  obtain ⟨t, started, sameConfig, works, represents, blank, index⟩ := init_erased config working erased
  rw [← sameConfig] at represents
  have run : running = t.appendAll records := by simp only [running, started]
  obtain ⟨same, _, related⟩ := represents.appendAll works records
  rw [← run] at same related
  cases records using List.reverseRecOn with
  | nil =>
    have validConfig : isConfigValid t.config = true := by rwa [sameConfig]
    have again := rebuild_erased (s := (FlashLogStorage.new t.flash t.config t.sharedIo).started) validConfig blank
    have restarted : t.restart.index = startIndex t.config := by
      rw [restart_rebuilds validConfig, again]
      rfl
    have write : t.writeAddr = t.config.startAddr := by
      rw [sameConfig]
      exact congrArg Index.writeAddr index
    have ordered := ((isConfigValid_iff _).mp validConfig).1
    rw [run, appendAll_nil, restarted, index, write, blank _ (Nat.le_refl _) ordered, sameConfig]
    simp
  | append_singleton records record =>
    have filled := (Represents.append_current t.config ((RingLog.fresh t.config).appendAll t.config records) record).2
    rw [← RingLog.appendAll_concat] at filled
    have positive := record.size_pos
    have ordered := live_ascending represents works (RingLog.live_fresh t.config) ascending
    rw [← sameConfig, ← same]
    exact related.restart_iff (by rw [filled]; split <;> omega) (by rwa [same])

/-- Fifty records whose frames take exactly one sector. -/
def sectorRecords (first : Nat) : List Record :=
  (List.range 50).map fun i =>
    sampleRecord (UInt32.ofNat (first + i)) (if i = 49 then 60 else 64) (by split <;> decide)

theorem length_sectorRecords (first : Nat) : (frameBytes (sectorRecords first)).length = 4096 := by
  simp only [length_frameBytes, sectorRecords, List.map_map, Function.comp_def, size_sampleRecord]
  decide

/-- Both sectors full, and the first begun anew. -/
def wrappedRecords : List Record := sectorRecords 0 ++ sectorRecords 50 ++ shortRecords [100, 101, 102]

theorem wrappedRecords_ascending : SerialOrder.Ascending (wrappedRecords.map Record.seq) := by
  refine ⟨List.range 103, by rfl, List.pairwise_lt_range, ?_⟩
  intro m left n right
  have := List.mem_range.mp left
  omega

theorem sectorRecords_ascending : SerialOrder.Ascending ((sectorRecords 0 ++ sectorRecords 50).map Record.seq) :=
  wrappedRecords_ascending.sublist ((List.sublist_append_left _ _).map _)

def fullSectors : RingLog where
  records := Function.update (Function.update (fun _ => []) 0 (sectorRecords 0)) 1 (sectorRecords 50)
  current := 1

theorem live_fullSectors :
    fullSectors.live ⟨0, 8192⟩ = placed 0 (sectorRecords 0) ++ placed 4096 (sectorRecords 50) := by
  simp [RingLog.live, RingOrder.unroll, RingOrder.stretch, RingLog.places, fullSectors, Config.sectors, Config.next,
    Config.base, List.range_succ]

theorem appendAll_fullSectors :
    RingLog.appendAll ⟨0, 8192⟩ (.fresh ⟨0, 8192⟩) (sectorRecords 0 ++ sectorRecords 50) = fullSectors := by
  have first : RingLog.appendAll ⟨0, 8192⟩ (.fresh ⟨0, 8192⟩) (sectorRecords 0) = oneSector (sectorRecords 0) :=
    RingLog.appendAll_block ⟨0, 8192⟩ (.fresh ⟨0, 8192⟩) (by simp [sectorRecords]) (.inl rfl)
      (Nat.le_of_eq (length_sectorRecords 0))
  rw [RingLog.appendAll_append, first]
  exact RingLog.appendAll_block ⟨0, 8192⟩ _ (by simp [sectorRecords])
    (.inr (by simp [RingLog.used, oneSector, length_sectorRecords])) (Nat.le_of_eq (length_sectorRecords 50))

/-- The log after two sectors filled to the last byte: its write address is back at the
start of the area, where the first of them still holds its frames. -/
def lapped : FlashLogStorage := ((blankStorage ⟨0, 8192⟩).init true).2.appendAll (sectorRecords 0 ++ sectorRecords 50)

theorem lapped_ring :
    Represents lapped fullSectors ∧ lapped.config = ⟨0, 8192⟩ ∧ 0 < fullSectors.used fullSectors.current ∧
      lapped.writeAddr = 0 ∧ lapped.flash.cells 0 = 0xA5 := by
  obtain ⟨same, _, related⟩ := appendAll_blank (sectorRecords 0 ++ sectorRecords 50)
  change lapped.config = _ at same
  change Represents lapped _ at related
  rw [appendAll_fullSectors] at related
  have start : lapped.config.base 0 = 0 := by
    rw [same]
    rfl
  have cell := related.imaged.head (k := 0) (by rw [same]; decide) (by simp [fullSectors, Sector.whole, sectorRecords])
  rw [start] at cell
  refine ⟨related, same, by simp [fullSectors, RingLog.used, length_sectorRecords], ?_, cell⟩
  rw [related.write, same]
  simp [fullSectors, RingLog.used, length_sectorRecords, Config.next, Config.base, Config.sectors]

/-- A restart of the wrapped log finds the index as it was. -/
theorem restart_index_wrapped :
    let running := ((blankStorage ⟨0, 8192⟩).init true).2.appendAll wrappedRecords
    running.validFrameCount = 53 ∧ running.oldestAddr = 4096 ∧ running.restart.index = running.index := by
  intro running
  obtain ⟨same, _, related⟩ := appendAll_blank wrappedRecords
  have ring : RingLog.appendAll ⟨0, 8192⟩ (.fresh ⟨0, 8192⟩) wrappedRecords =
      { records := Function.update fullSectors.records 0 (shortRecords [100, 101, 102]), current := 0 } := by
    rw [wrappedRecords, RingLog.appendAll_append, appendAll_fullSectors]
    exact RingLog.appendAll_block ⟨0, 8192⟩ fullSectors (by simp [shortRecords])
      (.inr (by simp [RingLog.used, fullSectors, length_sectorRecords])) (by rw [length_shortRecords]; decide)
  rw [ring] at related
  change running.config = _ at same
  change Represents running _ at related
  have live : RingLog.live ⟨0, 8192⟩
      { records := Function.update fullSectors.records 0 (shortRecords [100, 101, 102]), current := 0 } =
        placed 4096 (sectorRecords 50) ++ placed 0 (shortRecords [100, 101, 102]) := by
    simp [RingLog.live, RingOrder.unroll, RingOrder.stretch, RingLog.places, fullSectors, Config.sectors, Config.next,
      Config.base, List.range_succ]
  have counted := related.count
  rw [same, live] at counted
  have oldest := related.oldest (4096, (sectorRecords 50).head (by simp [sectorRecords])) (by rw [same, live]; rfl)
  have write := related.write
  rw [same] at write
  refine ⟨counted, oldest, (restart_index_iff (by decide) (blankStorage_working _) (blankStorage_erased _) wrappedRecords
    wrappedRecords_ascending).mpr ?_⟩
  rintro ⟨_, start, _⟩
  have place : running.writeAddr = 69 := by
    rw [write]
    simp [RingLog.used, length_shortRecords, Config.base]
  rw [show ((blankStorage ⟨0, 8192⟩).init true).2.appendAll wrappedRecords = running from rfl, place] at start
  cases start

/-- After two sectors filled to the last byte the write address is back at the start of
the area, and a restart moves it to the second sector. -/
theorem restart_leaves_sector :
    let running := ((blankStorage ⟨0, 8192⟩).init true).2.appendAll (sectorRecords 0 ++ sectorRecords 50)
    SerialOrder.Ascending ((sectorRecords 0 ++ sectorRecords 50).map Record.seq) ∧ running.writeAddr = 0 ∧
      running.restart.index ≠ running.index := by
  intro running
  have run : running = lapped := rfl
  obtain ⟨related, same, filled, write, cell⟩ := lapped_ring
  rw [run]
  refine ⟨sectorRecords_ascending, write, ?_⟩
  have ordered : SerialOrder.Ascending ((fullSectors.live lapped.config).map fun place => place.2.seq) := by
    rw [same, live_fullSectors, List.map_append, map_seq_placed, map_seq_placed, ← List.map_append]
    exact sectorRecords_ascending
  rw [ne_eq, related.restart_iff filled ordered, not_not, write, cell, same]
  exact ⟨by decide, rfl, by decide⟩

end PicoWLogger
