import PicoWLogger.Proofs.RingRefinement
import PicoWLogger.Proofs.RebuildIndex

/-! The index of a running log. From an erased area every append succeeds, and what the
index says is true of the frames in the flash: how many, which is oldest, which is last. -/

namespace PicoWLogger
open FlashLogStorage

namespace FlashLogStorage

def appendAll (s : FlashLogStorage) (records : List Record) : FlashLogStorage :=
  records.foldl (fun s record => (s.append record.frame).2) s

@[simp] theorem appendAll_nil (s : FlashLogStorage) : s.appendAll [] = s := rfl

theorem appendAll_append (s : FlashLogStorage) (front back : List Record) :
    s.appendAll (front ++ back) = (s.appendAll front).appendAll back := List.foldl_append

theorem appendAll_concat (s : FlashLogStorage) (records : List Record) (record : Record) :
    s.appendAll (records ++ [record]) = ((s.appendAll records).append record.frame).2 := appendAll_append _ _ _

def Erased (s : FlashLogStorage) : Prop :=
  ∀ addr, s.config.startAddr ≤ addr → addr < s.config.endAddr → s.flash.cells addr = 0xFF

end FlashLogStorage

namespace RingLog

def appendAll (config : Config) (ring : RingLog) (records : List Record) : RingLog :=
  records.foldl (fun ring record => ring.append config record) ring

theorem appendAll_append (config : Config) (ring : RingLog) (front back : List Record) :
    ring.appendAll config (front ++ back) = (ring.appendAll config front).appendAll config back := List.foldl_append

theorem appendAll_concat (config : Config) (ring : RingLog) (records : List Record) (record : Record) :
    ring.appendAll config (records ++ [record]) = (ring.appendAll config records).append config record :=
  List.foldl_append

theorem appendAll_fill (config : Config) (ring : RingLog) (block : List Record) (some' : 0 < ring.used ring.current)
    (room : ring.used ring.current + (frameBytes block).length ≤ 4096) :
    ring.appendAll config block =
      { ring with records := Function.update ring.records ring.current (ring.records ring.current ++ block) } := by
  induction block generalizing ring with
  | nil => simp [appendAll]
  | cons record rest ih =>
    rw [frameBytes_cons, List.length_append, Record.length_frame] at room
    have extends' : ring.Extends record := ⟨some', by omega⟩
    have step : ring.append config record =
        { ring with records := Function.update ring.records ring.current (ring.records ring.current ++ [record]) } := by
      rw [append, if_pos extends']
    have used : (ring.append config record).used (ring.append config record).current =
        ring.used ring.current + record.size := by
      simp [step, RingLog.used, frameBytes_append]
    have later := ih (ring.append config record) (by omega) (by omega)
    rw [appendAll, List.foldl_cons, ← appendAll, later]
    simp [step]

theorem appendAll_block (config : Config) (ring : RingLog) {block : List Record} (some' : block ≠ [])
    (begins : ring.used ring.current = 0 ∨ 4096 ≤ ring.used ring.current) (room : (frameBytes block).length ≤ 4096) :
    ring.appendAll config block =
      { records := Function.update ring.records (config.next ring.current) block, current := config.next ring.current } := by
  obtain ⟨record, rest, rfl⟩ := List.exists_cons_of_ne_nil some'
  have positive := record.size_pos
  rw [frameBytes_cons, List.length_append, Record.length_frame] at room
  have step : ring.append config record =
      { records := Function.update ring.records (config.next ring.current) [record]
        current := config.next ring.current } := by
    rw [append, if_neg]
    rintro ⟨nonempty, fits⟩
    omega
  have used : (ring.append config record).used (ring.append config record).current = record.size := by
    simp [step, RingLog.used]
  have later := appendAll_fill config (ring.append config record) rest (by omega) (by rw [used]; exact room)
  rw [appendAll, List.foldl_cons, ← appendAll, later]
  simp [step]

theorem live_fresh (config : Config) : RingLog.live config (.fresh config) = [] := by
  simp [live, RingOrder.unroll, RingOrder.stretch, places, fresh, placed]

end RingLog

section Start
variable {s : FlashLogStorage}

private theorem erased_imaged (config : isConfigValid s.config = true) (erased : s.Erased) :
    Imaged s fun _ => .whole [] := by
  apply Imaged.of_whole config
  intro k inside
  have sector := Config.base_inside config inside
  refine ⟨by simp, ?_⟩
  intro offset small
  rw [erased _ (by omega) (by omega)]
  rfl

theorem hits_erased (config : isConfigValid s.config = true) (erased : s.Erased) :
    s.scanner.hits s.config.endAddr s.config.startAddr = [] := by
  rw [(erased_imaged config erased).hits, Imaged.inOrder]
  simp [Sector.whole, placed]

theorem rebuild_erased (config : isConfigValid s.config = true) (erased : s.Erased) :
    s.rebuildIndexFromFlash = s.withIndex (startIndex s.config) := by
  have ordered := ((isConfigValid_iff _).mp config).1
  rw [rebuild_none (hits_erased config erased)]
  apply escapeDirty_clean
  exact (isErasedAt_iff config _).mpr ⟨Nat.le_refl _, ordered, erased _ (Nat.le_refl _) ordered⟩

theorem represents_fresh (config : isConfigValid s.config = true) (initialized : s.initialized = true)
    (locked : s.mutexCreated = true) (erased : s.Erased) (index : s.index = startIndex s.config) :
    Represents s (.fresh s.config) := by
  obtain ⟨_, _, some', _⟩ := Config.shape config
  have next : s.config.next (s.config.sectors - 1) = 0 := by
    rw [Config.next, Nat.sub_add_cancel some', Nat.mod_self]
  have live := RingLog.live_fresh s.config
  refine ⟨initialized, locked, erased_imaged config erased, Nat.sub_one_lt (by omega), ?_, ?_, ?_, ?_⟩
  · rw [show s.writeAddr = s.config.startAddr from congrArg Index.writeAddr index]
    simp [RingLog.fresh, RingLog.used, next, Config.base]
  · rw [live]
    exact congrArg Index.validFrameCount index
  · simp [live]
  · simp [live]

/-- `init` on an erased area succeeds and represents the empty ring. -/
theorem init_erased (config : isConfigValid s.config = true) (working : s.Working) (erased : s.Erased) :
    ∃ t, s.init true = (true, t) ∧ t.config = s.config ∧ t.Working ∧ Represents t (.fresh s.config) ∧
      t.Erased ∧ t.index = startIndex s.config := by
  have rebuilt : s.started.rebuildIndexFromFlash = s.started.withIndex (startIndex s.config) :=
    rebuild_erased config erased
  refine ⟨_, init_eq config, ?_⟩
  rw [rebuilt]
  exact ⟨rfl, ⟨working.flash, working.sharedIo⟩, represents_fresh config rfl rfl erased rfl, erased, rfl⟩

/-- Any number of appends keeps the storage and the ring in step. -/
theorem Represents.appendAll {ring : RingLog} (represents : Represents s ring) (working : s.Working)
    (records : List Record) :
    (s.appendAll records).config = s.config ∧ (s.appendAll records).Working ∧
      Represents (s.appendAll records) (ring.appendAll s.config records) := by
  induction records using List.reverseRecOn with
  | nil => exact ⟨rfl, working, represents⟩
  | append_singleton records record ih =>
    obtain ⟨sameConfig, works, related⟩ := ih
    obtain ⟨t, result, same, worksNext, relatedNext⟩ := related.append_refines works record
    rw [appendAll_concat, RingLog.appendAll_concat, result]
    rw [sameConfig] at relatedNext
    exact ⟨same.trans sameConfig, worksNext, relatedNext⟩

end Start

/-- The frames `live`, listed oldest first, are what the area holds and what the index
describes. -/
structure Indexed (s : FlashLogStorage) (live : List (Nat × Record)) : Prop where
  identical : ∀ place ∈ live, s.flash.cellsFrom place.1 place.2.size = place.2.frame
  inSector : ∀ place ∈ live, ∃ k < s.config.sectors,
    s.config.base k ≤ place.1 ∧ place.1 + place.2.size ≤ s.config.base k + 4096
  disjoint : live.Pairwise fun left right =>
    left.1 + left.2.size ≤ right.1 ∨ right.1 + right.2.size ≤ left.1
  found : (s.scanner.hits s.config.endAddr s.config.startAddr).Perm (live.map hitOf)
  count : s.validFrameCount = live.length
  oldest : ∀ first ∈ live.head?, s.oldestAddr = first.1
  newest : ∀ last ∈ live.getLast?, s.newestAddr = last.1 ∧ s.newestSeq = last.2.seq

/-- Storing `record` at `addr` gives up frames only when it begins a sector: then exactly
those stored in the sector, and they are the oldest. -/
def Evicts (addr : Nat) (record : Record) (before after : List (Nat × Record)) : Prop :=
  ∃ dropped kept, before = dropped ++ kept ∧ after = kept ++ [(addr, record)] ∧
    dropped =
      if addr % SECTOR_SIZE = 0 then
        before.filter fun place => addr ≤ place.1 ∧ place.1 < addr + SECTOR_SIZE
      else []

namespace Represents
variable {s : FlashLogStorage} {ring : RingLog}

theorem live_sector {config : Config} {place : Nat × Record} (member : place ∈ ring.live config) :
    ∃ k < config.sectors, place ∈ placed (config.base k) (ring.records k) := by
  obtain ⟨k, inside, here⟩ := List.mem_flatMap.mp ((live_perm config ring).mem_iff.mp member)
  exact ⟨k, List.mem_range.mp inside, here⟩

theorem places_bounds (represents : Represents s ring) {k : Nat} (inside : k < s.config.sectors) {place : Nat × Record}
    (member : place ∈ placed (s.config.base k) (ring.records k)) :
    s.config.base k ≤ place.1 ∧ place.1 + place.2.size ≤ s.config.base k + 4096 :=
  represents.imaged.places_bounds inside member

theorem indexed (represents : Represents s ring) : Indexed s (ring.live s.config) where
  identical place member := by
    obtain ⟨k, inside, here⟩ := live_sector member
    exact (represents.imaged.valid inside here).2
  inSector place member := by
    obtain ⟨k, inside, here⟩ := live_sector member
    exact ⟨k, inside, represents.places_bounds inside here⟩
  disjoint := by
    apply ((live_perm s.config ring).pairwise_iff fun {_ _} => Or.symm).mpr
    exact represents.imaged.inOrder_disjoint.imp Or.inl
  found := by
    rw [represents.imaged.hits]
    exact ((live_perm s.config ring).map hitOf).symm
  count := represents.count
  oldest := represents.oldest
  newest := represents.newest

theorem evicts (represents : Represents s ring) (record : Record) :
    Evicts (s.appendAddress record.size) record (ring.live s.config) ((ring.append s.config record).live s.config) := by
  have config := represents.imaged.config
  have follows := Config.next_lt config ring.current
  rw [live_append config represents.current, represents.appendAddress]
  by_cases extends' : ring.Extends record
  · have sector := Config.base_inside config represents.current
    have used : 0 < ring.used ring.current ∧ ring.used ring.current + record.size ≤ 4096 := extends'
    have positive := record.size_pos
    simp only [if_pos extends']
    refine ⟨[], ring.live s.config, rfl, rfl, ?_⟩
    rw [if_neg]
    simp only [SECTOR_SIZE]
    omega
  · have sector := Config.base_inside config follows
    simp only [if_neg extends']
    refine ⟨ring.places s.config (s.config.next ring.current), kept s.config ring, live_eq config ring, rfl, ?_⟩
    rw [if_pos sector.2.2, live_eq config ring, List.filter_append]
    have here : (ring.places s.config (s.config.next ring.current)).filter (fun place =>
        s.config.base (s.config.next ring.current) ≤ place.1 ∧
          place.1 < s.config.base (s.config.next ring.current) + SECTOR_SIZE) =
        ring.places s.config (s.config.next ring.current) := by
      rw [List.filter_eq_self]
      intro place member
      have bounds := represents.places_bounds follows member
      have positive := place.2.size_pos
      simp only [SECTOR_SIZE, decide_eq_true_eq]
      omega
    have elsewhere : (kept s.config ring).filter (fun place =>
        s.config.base (s.config.next ring.current) ≤ place.1 ∧
          place.1 < s.config.base (s.config.next ring.current) + SECTOR_SIZE) = [] := by
      rw [List.filter_eq_nil_iff]
      intro place member
      obtain ⟨k, inside, different, stored⟩ := RingOrder.mem_others follows member
      have bounds := represents.places_bounds inside stored
      have apart := s.config.base_apart different
      have positive := place.2.size_pos
      simp only [SECTOR_SIZE, decide_eq_true_eq]
      omega
    rw [here, elsewhere, List.append_nil]

end Represents

theorem live_suffix {s : FlashLogStorage} {ring : RingLog} (represents : Represents s ring) (working : s.Working)
    (nothing : ring.live s.config = []) (records : List Record) :
    ((ring.appendAll s.config records).live s.config).map Prod.snd <:+ records := by
  induction records using List.reverseRecOn with
  | nil => simp [RingLog.appendAll, nothing]
  | append_singleton records record ih =>
    obtain ⟨sameConfig, _, related⟩ := represents.appendAll working records
    obtain ⟨dropped, kept, before, after, _⟩ := related.evicts record
    rw [sameConfig] at before after
    rw [RingLog.appendAll_concat, after, List.map_append]
    rw [before, List.map_append] at ih
    obtain ⟨earlier, same⟩ := ih
    exact ⟨earlier ++ dropped.map Prod.snd, by rw [← same]; simp⟩

/-- The ring index invariant: every append from an erased area succeeds, the frames then
live are the last appended ones and what the index describes, and frames are given up
only a sector at a time, oldest first. -/
theorem append_keeps_index {s : FlashLogStorage} (config : isConfigValid s.config = true) (working : s.Working)
    (erased : s.Erased) :
    ∃ live : List Record → List (Nat × Record), live [] = [] ∧
      ∀ (history : List Record) (record : Record),
        let before := (s.init true).2.appendAll history
        let after := before.append record.frame
        after.1 = true ∧ Indexed after.2 (live (history ++ [record])) ∧ 1 ≤ after.2.validFrameCount ∧
          (live (history ++ [record])).map Prod.snd <:+ history ++ [record] ∧
          Evicts (before.appendAddress record.frame.length) record (live history) (live (history ++ [record])) := by
  obtain ⟨t, started, sameConfig, works, represents, _, _⟩ := init_erased config working erased
  rw [started]
  rw [← sameConfig] at represents
  have nothing := RingLog.live_fresh t.config
  refine ⟨fun records => ((RingLog.fresh t.config).appendAll t.config records).live t.config, nothing, ?_⟩
  intro history record before after
  obtain ⟨same, worksBefore, related⟩ := represents.appendAll works history
  obtain ⟨u, result, sameAfter, _, relatedAfter⟩ := related.append_refines worksBefore record
  have evicts := related.evicts record
  rw [same] at sameAfter relatedAfter evicts
  rw [← RingLog.appendAll_concat] at relatedAfter evicts
  have indexed := relatedAfter.indexed
  rw [sameAfter] at indexed
  have succeeded : after = (true, u) := result
  have suffix := live_suffix represents works nothing (history ++ [record])
  rw [succeeded, Record.length_frame]
  refine ⟨rfl, indexed, ?_, suffix, evicts⟩
  obtain ⟨dropped, kept, _, shape, _⟩ := evicts
  rw [indexed.count, shape, List.length_append]
  exact Nat.le_add_left 1 _

/-- A new object over a working chip whose cells are all erased. -/
def blankStorage (config : Config) : FlashLogStorage :=
  .new { cells := fun _ => 0xFF, polls := fun _ => true, power := none, requests := [] } config fun _ => true

@[simp] theorem blankStorage_config (config : Config) : (blankStorage config).config = config := rfl

theorem blankStorage_working (config : Config) : (blankStorage config).Working := ⟨⟨rfl, rfl⟩, rfl⟩

theorem blankStorage_erased (config : Config) : (blankStorage config).Erased := fun _ _ _ => rfl

def holding (config : Config) (image : List UInt8) : FlashLogStorage :=
  .new { cells := fun a => image.getD a 0xFF, polls := fun _ => true, power := none, requests := [] } config fun _ => true

theorem cellsFrom_holding_append (config : Config) (front middle back : List UInt8) :
    (holding config (front ++ middle ++ back)).flash.cellsFrom front.length middle.length = middle := by
  apply List.ext_getElem
  · simp
  · intro i first last
    have inside : front.length + i < (front ++ middle).length := by
      rw [List.length_append]
      omega
    have cell : (front ++ middle ++ back).getD (front.length + i) 0xFF = middle[i] := by
      rw [List.getD_append _ _ _ _ inside, List.getD_append_right _ _ _ _ (Nat.le_add_right _ _), Nat.add_sub_cancel_left]
      exact List.getD_eq_getElem _ _ last
    rw [FlashDriver.getElem_cellsFrom, ← cell]
    rfl

theorem cellsFrom_holding (config : Config) (image : List UInt8) :
    (holding config image).flash.cellsFrom 0 image.length = image := by
  simpa using cellsFrom_holding_append config [] image []

def sampleRecord (seq : UInt32) (length : UInt8) (fits : length.toNat ≤ LOG_FRAME_MAX_PAYLOAD) : Record where
  val :=
    { seq, eventId := EventId.TEXT_LOG, level := LogLevel.INFO, length, timestampUs := 0
      payload := Vector.replicate LOG_PAYLOAD_MAX 0 }
  property := fits

theorem size_sampleRecord (seq : UInt32) (length : UInt8) (fits : length.toNat ≤ LOG_FRAME_MAX_PAYLOAD) :
    (sampleRecord seq length fits).size = 18 + length.toNat := by
  simp only [Record.size, sampleRecord, LOG_FRAME_MAGIC_SIZE, LOG_FRAME_HEADER_SIZE, LOG_FRAME_CRC_SIZE]
  omega

theorem five_fits : (5 : UInt8).toNat ≤ LOG_FRAME_MAX_PAYLOAD := by decide

def shortRecords (seqs : List UInt32) : List Record := seqs.map fun seq => sampleRecord seq 5 five_fits

theorem length_shortRecords (seqs : List UInt32) : (frameBytes (shortRecords seqs)).length = 23 * seqs.length := by
  simp only [length_frameBytes, shortRecords, List.map_map, Function.comp_def, size_sampleRecord, List.map_const',
    List.sum_replicate_nat]
  rw [Nat.mul_comm]
  rfl

def oneSector (block : List Record) : RingLog := { records := Function.update (fun _ => []) 0 block, current := 0 }

theorem live_oneSector (block : List Record) : (oneSector block).live ⟨0, 8192⟩ = placed 0 block := by
  simp [RingLog.live, RingOrder.unroll, RingOrder.stretch, RingLog.places, oneSector, Config.sectors, Config.next,
    Config.base, List.range_succ, Function.update_apply, placed]

theorem appendAll_blank (records : List Record) :
    let running := ((blankStorage ⟨0, 8192⟩).init true).2.appendAll records
    running.config = ⟨0, 8192⟩ ∧ running.Working ∧
      Represents running (RingLog.appendAll ⟨0, 8192⟩ (.fresh ⟨0, 8192⟩) records) := by
  intro running
  obtain ⟨t, started, sameConfig, works, represents, _, _⟩ := init_erased (s := blankStorage ⟨0, 8192⟩) (by decide)
    (blankStorage_working _) (blankStorage_erased _)
  have run : running = t.appendAll records := by simp only [running, started]
  obtain ⟨same, working, related⟩ := represents.appendAll works records
  rw [blankStorage_config] at sameConfig related
  rw [sameConfig, ← run] at related
  rw [← run, sameConfig] at same
  rw [← run] at working
  exact ⟨same, working, related⟩

theorem appendAll_oneSector (block : List Record) (some' : block ≠ []) (room : (frameBytes block).length ≤ 4096) :
    let running := ((blankStorage ⟨0, 8192⟩).init true).2.appendAll block
    running.config = ⟨0, 8192⟩ ∧ Represents running (oneSector block) ∧ running.validFrameCount = block.length := by
  intro running
  obtain ⟨same, _, related⟩ := appendAll_blank block
  have ring : RingLog.appendAll ⟨0, 8192⟩ (.fresh ⟨0, 8192⟩) block = oneSector block :=
    RingLog.appendAll_block ⟨0, 8192⟩ (.fresh ⟨0, 8192⟩) some' (.inl rfl) room
  rw [ring] at related
  refine ⟨same, related, ?_⟩
  rw [related.count, same, live_oneSector, length_placed]

/-- The third of three appends. -/
theorem append_keeps_index_three :
    ∃ after live, (((blankStorage ⟨0, 8192⟩).init true).2.appendAll (shortRecords [0, 1])).append
        (sampleRecord 2 5 five_fits).frame = (true, after) ∧
      after.validFrameCount = 3 ∧ live.map Prod.snd = shortRecords [0, 1, 2] ∧ Indexed after live := by
  obtain ⟨live, _, step⟩ := append_keeps_index (s := blankStorage ⟨0, 8192⟩) (by decide) (blankStorage_working _)
    (blankStorage_erased _)
  obtain ⟨succeeded, indexed, _, suffix, _⟩ := step (shortRecords [0, 1]) (sampleRecord 2 5 five_fits)
  obtain ⟨after, isAfter⟩ : ∃ after, (((blankStorage ⟨0, 8192⟩).init true).2.appendAll (shortRecords [0, 1])).append
    (sampleRecord 2 5 five_fits).frame = after := ⟨_, rfl⟩
  have three : shortRecords [0, 1] ++ [sampleRecord 2 5 five_fits] = shortRecords [0, 1, 2] := rfl
  have counted := (appendAll_oneSector (shortRecords [0, 1, 2]) (by simp [shortRecords])
    (by rw [length_shortRecords]; decide)).2.2
  rw [← three, appendAll_concat, isAfter, three] at counted
  rw [isAfter] at succeeded
  rw [three, isAfter] at indexed
  rw [three] at suffix
  refine ⟨after.2, _, isAfter.trans (Prod.ext succeeded rfl), counted, suffix.eq_of_length ?_, indexed⟩
  rw [List.length_map, ← indexed.count, counted]

end PicoWLogger
