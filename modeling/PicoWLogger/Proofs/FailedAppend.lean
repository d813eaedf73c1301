import PicoWLogger.Proofs.AppendOutcome
import PicoWLogger.Proofs.CutAppend
import PicoWLogger.Proofs.FoundFrames
import PicoWLogger.Proofs.Restart

/-! Appends that fail before any cell changes. The error paths recover the index from the
flash, and what they recover is the index of before only where a restart would find it too. -/

namespace PicoWLogger
open FlashLogStorage

namespace FlashLogStorage

def facing (s : FlashLogStorage) (sharedIo polls : Nat → Bool) : FlashLogStorage :=
  { s with sharedIo, flash := { s.flash with polls } }

/-- In the order of addresses the oldest frame is the first with the lowest number, and the
newest the first with the highest. -/
def ExtremesLead (s : FlashLogStorage) : Prop :=
  (∀ oldest ∈ s.found, oldest.addr = s.oldestAddr →
    Selection.Leads Scanner.Hit.addr (fun hit best => isSeqNewer best.item.seq hit.item.seq) s.found oldest) ∧
  ∀ newest ∈ s.found, newest.addr = s.newestAddr →
    Selection.Leads Scanner.Hit.addr (fun hit best => isSeqNewer hit.item.seq best.item.seq) s.found newest

/-- The numbers of the frames found lie in one half of all numbers. -/
def InWindow (s : FlashLogStorage) : Prop :=
  ∃ base, ∀ hit ∈ s.found, SerialOrder.offset base hit.item.seq < 2 ^ 31

/-- The write address is a sector start in a ring of several sectors whose sector is not erased. -/
def AtDirtySector (s : FlashLogStorage) : Prop :=
  1 < s.config.sectors ∧ isSectorStart s.writeAddr = true ∧ s.flash.cells s.writeAddr ≠ 0xFF

end FlashLogStorage

theorem rebuild_index_congr {s u : FlashLogStorage} (config : isConfigValid s.config = true)
    (sameConfig : u.config = s.config) (sameCells : u.flash.cells = s.flash.cells) :
    u.rebuildIndexFromFlash.index = s.rebuildIndexFromFlash.index := by
  have probe : u.isValidFrameAt = s.isValidFrameAt := by
    funext addr
    exact isValidFrameAt_congr config sameConfig (fun a _ _ => by rw [sameCells]) addr
  have scanner : u.scanner = s.scanner := by simp only [scanner, probe]
  have erased (index : Index) : (u.withIndex index).escapeDirty.index = (s.withIndex index).escapeDirty.index := by
    have read : (u.withIndex index).isErasedAt (u.withIndex index).writeAddr =
        (s.withIndex index).isErasedAt (s.withIndex index).writeAddr := by
      simp only [isErasedAt, withIndex, FlashDriver.read, FlashDriver.cellsFrom, sameConfig, sameCells]
      rfl
    have wrap : (u.withIndex index).wrapAddress = (s.withIndex index).wrapAddress := by
      funext addr
      simp only [wrapAddress, withIndex, sameConfig]
      rfl
    rw [escapeDirty, escapeDirty, read, wrap]
    split <;> rfl
  cases hits : s.scanner.hits s.config.endAddr s.config.startAddr with
  | nil =>
    rw [rebuild_none hits, rebuild_none (by rw [scanner, sameConfig, hits]), sameConfig, erased]
  | cons first rest =>
    have same (oldest newest : Scanner.Hit LogFrameHeader) (count : Nat) :
        u.scannedIndex oldest newest count = s.scannedIndex oldest newest count := by
      simp only [scannedIndex, wrapAddress, sameConfig]
    rw [rebuild_cons hits, rebuild_cons (by rw [scanner, sameConfig, hits]), same, erased]

namespace WritePosition
variable {s : FlashLogStorage} {sectors : Nat → Sector}

theorem appendAddress_inside (position : WritePosition s sectors) (config : isConfigValid s.config = true) {len : Nat}
    (positive : 0 < len) (small : len ≤ 4096) : s.appendAddress len + len ≤ s.config.endAddr := by
  have starts {k : Nat} (inside : k < s.config.sectors) : s.config.base k + len ≤ s.config.endAddr := by
    have sector := Config.base_inside config inside
    omega
  cases position with
  | boundary k inside write =>
    have sector := Config.base_inside config inside
    rw [appendAddress_fits config inside (by omega) (by omega) (by omega), write]
    exact starts inside
  | middle k inside clean some' part write =>
    have sector := Config.base_inside config inside
    by_cases room : s.writeAddr + len ≤ s.config.base k + 4096
    · rw [appendAddress_fits config inside (by omega) (by omega) room]
      omega
    · rw [appendAddress_next config inside (by omega) (by omega) small (by omega)]
      exact starts (Config.next_lt config k)

end WritePosition

namespace Represents
variable {s : FlashLogStorage} {ring : RingLog}

theorem position (represents : Represents s ring) : WritePosition s fun k => .whole (ring.records k) := by
  have write := represents.write
  by_cases part : 0 < ring.used ring.current ∧ ring.used ring.current < 4096
  · rw [if_pos part] at write
    exact .middle ring.current represents.current rfl part.1 part.2 write
  · rw [if_neg part] at write
    exact .boundary _ (Config.next_lt represents.imaged.config ring.current) write

theorem found_perm (represents : Represents s ring) : s.found.Perm ((ring.live s.config).map hitOf) :=
  represents.found_live rfl rfl

theorem found_at (represents : Represents s ring) {place : Nat × Record} (live : place ∈ ring.live s.config)
    {hit : Scanner.Hit LogFrameHeader} (member : hit ∈ s.found) (start : hit.addr = place.1) : hit = hitOf place :=
  Scanner.hits_unique member (represents.found_perm.mem_iff.mpr (List.mem_map_of_mem live)) start

theorem recovers_iff (represents : Represents s ring) (filled : 0 < ring.used ring.current)
    {head : Scanner.Hit LogFrameHeader} {rest : List (Scanner.Hit LogFrameHeader)} (scanned : s.found = head :: rest)
    {first last : Nat × Record} (isFirst : first ∈ (ring.live s.config).head?)
    (isLast : last ∈ (ring.live s.config).getLast?) :
    s.rebuildIndexFromFlash.index = s.index ↔
      (rest.foldl olderHit head = hitOf first ∧ rest.foldl newerHit head = hitOf last) ∧ ¬ s.AtDirtySector := by
  have rebuilt := rebuild_cons scanned
  have listed := represents.found_perm
  have counted : rest.length + 1 = (ring.live s.config).length := by
    rw [← List.length_map hitOf, ← listed.length_eq, scanned, List.length_cons]
  have oldest := oldest_mem head rest
  have newest := newest_mem head rest
  rw [← scanned] at oldest newest
  rw [AtDirtySector, ← represents.escape_iff]
  constructor
  · intro restored
    have parts := restored
    rw [rebuilt, escapeDirty_index] at parts
    have start : (rest.foldl olderHit head).addr = s.oldestAddr := congrArg Index.oldestAddr parts
    have tail : (rest.foldl newerHit head).addr = s.newestAddr := congrArg Index.newestAddr parts
    have ends := And.intro
      (represents.found_at (List.mem_of_mem_head? isFirst) oldest (start.trans (represents.oldest _ isFirst)))
      (represents.found_at (List.mem_of_getLast? isLast) newest (tail.trans (represents.newest _ isLast).1))
    rw [ends.1, ends.2] at rebuilt
    rw [represents.recovered_index filled rfl rfl isFirst isLast counted rebuilt] at restored
    exact ⟨ends, congrArg Index.writeAddr restored⟩
  · rintro ⟨⟨start, tail⟩, stays⟩
    rw [start, tail] at rebuilt
    rw [represents.recovered_index filled rfl rfl isFirst isLast counted rebuilt, stays]
    rfl

theorem found_cons (represents : Represents s ring) (filled : 0 < ring.used ring.current) :
    ∃ head rest, s.found = head :: rest := by
  refine List.exists_cons_of_ne_nil fun none' => represents.live_nonempty filled ?_
  have empty := represents.found_perm
  rw [none'] at empty
  exact List.map_eq_nil_iff.mp empty.symm.eq_nil

/-- Where the oldest and the newest frame lead, the recovery finds them, whatever the numbers. -/
theorem recovers (represents : Represents s ring) (filled : 0 < ring.used ring.current) (leads : s.ExtremesLead)
    (clean : ¬ s.AtDirtySector) : s.rebuildIndexFromFlash.index = s.index := by
  obtain ⟨head, rest, scanned⟩ := represents.found_cons filled
  have some' := represents.live_nonempty filled
  have isFirst := List.head_mem_head? some'
  have isLast := List.getLast_mem_getLast? some'
  have sorted := Scanner.hits_sorted (S := s.scanner) s.config.endAddr s.config.startAddr
  have inFound {place : Nat × Record} (live : place ∈ ring.live s.config) : hitOf place ∈ s.found :=
    represents.found_perm.mem_iff.mpr (List.mem_map_of_mem live)
  have first := inFound (List.mem_of_mem_head? isFirst)
  have last := inFound (List.mem_of_getLast? isLast)
  have oldest := leads.1 _ first (represents.oldest _ isFirst).symm
  have newest := leads.2 _ last (represents.newest _ isLast).1.symm
  change s.found.Pairwise _ at sorted
  rw [scanned] at sorted first last oldest newest
  exact (represents.recovers_iff filled scanned isFirst isLast).mpr
    ⟨⟨oldest.foldl_pick sorted first, newest.foldl_pick sorted last⟩, clean⟩

theorem recovers_clean (represents : Represents s ring) (filled : 0 < ring.used ring.current)
    (restored : s.rebuildIndexFromFlash.index = s.index) : ¬ s.AtDirtySector := by
  obtain ⟨head, rest, scanned⟩ := represents.found_cons filled
  have some' := represents.live_nonempty filled
  exact ((represents.recovers_iff filled scanned (List.head_mem_head? some') (List.getLast_mem_getLast? some')).mp
    restored).2

/-- With the numbers in one window it finds them only where they lead. -/
theorem recovers_leads (represents : Represents s ring) (filled : 0 < ring.used ring.current) (window : s.InWindow)
    (restored : s.rebuildIndexFromFlash.index = s.index) : s.ExtremesLead := by
  obtain ⟨head, rest, scanned⟩ := represents.found_cons filled
  obtain ⟨base, window⟩ := window
  have some' := represents.live_nonempty filled
  have isFirst := List.head_mem_head? some'
  have isLast := List.getLast_mem_getLast? some'
  obtain ⟨⟨first, last⟩, _⟩ := (represents.recovers_iff filled scanned isFirst isLast).mp restored
  have sorted := Scanner.hits_sorted (S := s.scanner) s.config.endAddr s.config.startAddr
  change s.found.Pairwise _ at sorted
  have later (a b : Scanner.Hit LogFrameHeader) (left : a ∈ s.found) (right : b ∈ s.found) :
      isSeqNewer a.item.seq b.item.seq = true ↔
        SerialOrder.offset base b.item.seq < SerialOrder.offset base a.item.seq := by
    rw [isSeqNewer, decide_eq_true_eq, SerialOrder.newer_iff_offset (window a left) (window b right)]
  constructor
  · intro oldest member start
    rw [represents.found_at (List.mem_of_mem_head? isFirst) member (start.trans (represents.oldest _ isFirst)), ← first]
    rw [scanned] at sorted later ⊢
    refine Selection.leads_foldl_pick (fun hit => -(SerialOrder.offset base hit.item.seq : Int)) ?_ sorted
    intro a left b right
    rw [later b a right left]
    omega
  · intro newest member start
    rw [represents.found_at (List.mem_of_getLast? isLast) member (start.trans (represents.newest _ isLast).1), ← last]
    rw [scanned] at sorted later ⊢
    refine Selection.leads_foldl_pick (fun hit => (SerialOrder.offset base hit.item.seq : Int)) ?_ sorted
    intro a left b right
    rw [later a b left right]
    omega

/-- Numbers that ascend in the order of the ring let both lead. -/
theorem leads_of_ascending (represents : Represents s ring)
    (ascending : SerialOrder.Ascending ((ring.live s.config).map fun place => place.2.seq)) : s.ExtremesLead := by
  obtain ⟨base, window, increasing⟩ := ascending.offsets
  rw [List.pairwise_map] at increasing
  have later (a b : Nat × Record) (left : a ∈ ring.live s.config) (right : b ∈ ring.live s.config) :
      isSeqNewer a.2.seq b.2.seq = true ↔ SerialOrder.offset base b.2.seq < SerialOrder.offset base a.2.seq := by
    rw [isSeqNewer, decide_eq_true_eq, SerialOrder.newer_iff_offset (window _ (List.mem_map_of_mem left))
      (window _ (List.mem_map_of_mem right))]
  have listed {hit : Scanner.Hit LogFrameHeader} (member : hit ∈ s.found) : ∃ place ∈ ring.live s.config, hitOf place = hit :=
    List.mem_map.mp (represents.found_perm.mem_iff.mp member)
  by_cases none' : ring.live s.config = []
  · have nothing : s.found = [] := by
      have empty := represents.found_perm
      rwa [none', List.map_nil, List.perm_nil] at empty
    simp [ExtremesLead, nothing]
  have isFirst := List.head_mem_head? none'
  have isLast := List.getLast_mem_getLast? none'
  have ordered : (ring.live s.config).Pairwise fun a b =>
      a = b ∨ SerialOrder.offset base a.2.seq < SerialOrder.offset base b.2.seq := increasing.imp Or.inr
  constructor
  · intro oldest member start other inside
    obtain ⟨place, live, rfl⟩ := listed inside
    have first := List.mem_of_mem_head? isFirst
    rw [represents.found_at first member (start.trans (represents.oldest _ isFirst))]
    rcases ordered.rel_head_of_rel_head_head live (.inl rfl) with same | behind
    · simp [hitOf, same]
    · exact ⟨fun _ => (later _ _ live first).mpr behind,
        fun _ => Bool.eq_false_iff.mpr fun newer => Nat.lt_asymm behind ((later _ _ first live).mp newer)⟩
  · intro newest member start other inside
    obtain ⟨place, live, rfl⟩ := listed inside
    have last := List.mem_of_getLast? isLast
    rw [represents.found_at last member (start.trans (represents.newest _ isLast).1)]
    rcases ordered.rel_getLast_of_rel_getLast_getLast live (.inl rfl) with same | before
    · simp [hitOf, same]
    · exact ⟨fun _ => (later _ _ last live).mpr before,
        fun _ => Bool.eq_false_iff.mpr fun newer => Nat.lt_asymm before ((later _ _ live last).mp newer)⟩

end Represents

section Failure
variable {s : FlashLogStorage}

theorem append_unlocked (initialized : s.initialized = true) (locked : s.mutexCreated = true) {data : List UInt8}
    (nonempty : 0 < data.length) (fits : data.length ≤ 4096) (begins : isSectorStart (s.appendAddress data.length) = true)
    (refused : s.sharedIo 0 = false) :
    ∃ u : FlashLogStorage, s.append data = (false, u.rebuildIndexFromFlash) ∧ u.config = s.config ∧ u.flash = s.flash ∧
      u.initialized = true ∧ u.mutexCreated = true ∧ u.sharedIo = fun n => s.sharedIo (n + 1) := by
  have some' : data.length ≠ 0 := by omega
  have notLarge : ¬ data.length > SECTOR_SIZE := by
    simp only [SECTOR_SIZE]
    omega
  obtain ⟨t, isT⟩ : ∃ t, s.invalidateFramesInErasedSector (s.appendAddress data.length) = t := ⟨_, rfl⟩
  have keeps := invalidate_keeps s (s.appendAddress data.length)
  rw [isT] at keeps
  have kept : t.config = s.config ∧ t.flash = s.flash ∧ t.initialized = true ∧ t.mutexCreated = true ∧
      t.sharedIo = s.sharedIo := by
    rw [keeps]
    exact ⟨rfl, rfl, initialized, locked, rfl⟩
  obtain ⟨sameConfig, sameFlash, begun, created, sameIo⟩ := kept
  refine ⟨{ t with sharedIo := fun n => t.sharedIo (n + 1) }, ?_, sameConfig, sameFlash, begun, created, by simp only [sameIo]⟩
  simp only [append, initialized, some', lock, locked, notLarge, beginSector, begins, isT, lockSharedIo_eq, sameIo, refused,
    Bool.not_true, Bool.false_eq_true, ↓reduceIte]

/-- A failed append of data that it does not refuse at once recovers the index over what it left. -/
theorem append_recovers (config : isConfigValid s.config = true) (initialized : s.initialized = true)
    (locked : s.mutexCreated = true) {data : List UInt8} (nonempty : 0 < data.length) (fits : data.length ≤ 4096)
    (inside : s.appendAddress data.length + data.length ≤ s.config.endAddr) (failed : (s.append data).1 = false) :
    ∃ u : FlashLogStorage, s.append data = (false, u.rebuildIndexFromFlash) ∧ u.config = s.config := by
  cases append_outcome config initialized locked data nonempty fits rfl inside with
  | failed index chip cells polls requests sharedIo same => exact ⟨_, same, rfl⟩
  | stored polls requests sharedIo header size valid same =>
    rw [same] at failed
    cases failed

end Failure

theorem FlashLogStorage.Erased.recovers {s : FlashLogStorage} (erased : s.Erased) (config : isConfigValid s.config = true)
    (index : s.index = startIndex s.config) : s.ExtremesLead ∧ ¬ s.AtDirtySector := by
  have ordered := ((isConfigValid_iff _).mp config).1
  have write : s.writeAddr = s.config.startAddr := congrArg Index.writeAddr index
  have clean := erased s.config.startAddr (Nat.le_refl _) ordered
  have nothing : s.found = [] := hits_erased config erased
  rw [ExtremesLead, nothing, AtDirtySector, write, clean]
  simp

/-- With the write address at the start of a sector, an append that is not granted the lock. -/
theorem append_refused {s : FlashLogStorage} (config : isConfigValid s.config = true) {k : Nat}
    (inside : k < s.config.sectors) (write : s.writeAddr = s.config.base k) (initialized : s.initialized = true)
    (locked : s.mutexCreated = true) (refused : s.sharedIo 0 = false) (record : Record) :
    ∃ u : FlashLogStorage, s.append record.frame = (false, u.rebuildIndexFromFlash) ∧ u.config = s.config ∧
      u.flash = s.flash ∧ u.initialized = true ∧ u.mutexCreated = true ∧ u.sharedIo = fun n => s.sharedIo (n + 1) := by
  have small := record.size_lt
  have positive := record.size_pos
  have length := record.length_frame
  have sector := Config.base_inside config inside
  have place : s.appendAddress record.frame.length = s.config.base k := by
    rw [appendAddress_fits config inside (by omega) (by omega) (by omega), write]
  refine append_unlocked initialized locked (by omega) (by omega) ?_ refused
  simp only [place, isSectorStart, SECTOR_SIZE, decide_eq_true_eq]
  omega

/-- A failed append that changed no cell recovers the index, unless it is refused for its length. -/
theorem failed_append_recovers {running : FlashLogStorage} {ring : RingLog} (represents : Represents running ring)
    (sharedIo polls : Nat → Bool) (data : List UInt8) :
    let result := (running.facing sharedIo polls).append data
    result.1 = false → result.2.flash.cells = running.flash.cells →
      (result.2.index = running.index ↔ data.length = 0 ∨ SECTOR_SIZE < data.length ∨
        running.rebuildIndexFromFlash.index = running.index) := by
  intro result failed unchanged
  have validConfig := represents.imaged.config
  by_cases empty : data.length = 0
  · simp [result, facing, append, represents.initialized, empty, FlashLogStorage.index]
  by_cases large : SECTOR_SIZE < data.length
  · simp [result, facing, append, represents.initialized, represents.locked, lock, empty, large, FlashLogStorage.index]
  have inside := represents.position.appendAddress_inside validConfig (Nat.pos_of_ne_zero empty) (Nat.le_of_not_lt large)
  obtain ⟨u, recovered, area⟩ := append_recovers (s := running.facing sharedIo polls)
    validConfig represents.initialized represents.locked (Nat.pos_of_ne_zero empty) (Nat.le_of_not_lt large) inside failed
  have isResult : result = (false, u.rebuildIndexFromFlash) := recovered
  have sameCells : u.flash.cells = running.flash.cells := by
    rw [isResult, rebuildIndexFromFlash_keeps] at unchanged
    exact unchanged
  rw [isResult, rebuild_index_congr validConfig area sameCells]
  simp only [empty, large, false_or]

theorem appendAll_ring {s : FlashLogStorage} (config : isConfigValid s.config = true) (working : s.Working)
    (erased : s.Erased) (records : List Record) :
    let running := (s.init true).2.appendAll records
    ∃ ring, Represents running ring ∧ running.config = s.config ∧
      (SerialOrder.Ascending (records.map Record.seq) →
        SerialOrder.Ascending ((ring.live running.config).map fun place => place.2.seq)) ∧
      (running.Erased ∧ running.index = startIndex running.config ∨ 0 < ring.used ring.current) := by
  intro running
  obtain ⟨t, started, sameConfig, works, represents, blank, index⟩ := init_erased config working erased
  rw [← sameConfig] at represents
  have run : running = t.appendAll records := by simp only [running, started]
  obtain ⟨same, _, related⟩ := represents.appendAll works records
  rw [← run] at same related
  refine ⟨_, related, same.trans sameConfig, fun ascending => ?_, ?_⟩
  · rw [same]
    exact live_ascending represents works (RingLog.live_fresh t.config) ascending
  · cases records using List.reverseRecOn with
    | nil =>
      rw [appendAll_nil] at run
      exact .inl ⟨by rwa [run], by rw [run, index, sameConfig]⟩
    | append_singleton records record =>
      have filled := (Represents.append_current t.config ((RingLog.fresh t.config).appendAll t.config records) record).2
      rw [← RingLog.appendAll_concat] at filled
      have positive := record.size_pos
      exact .inr (by rw [filled]; split <;> omega)

/-- A failed append that changed no cell keeps the index when it is refused for its length, or the
oldest and the newest frame lead and the write address is not a sector start, in a ring of several
sectors, whose sector still holds frames; with the numbers in one window only then. -/
theorem failed_append_index_iff {s : FlashLogStorage} (config : isConfigValid s.config = true) (working : s.Working)
    (erased : s.Erased) (records : List Record) (sharedIo polls : Nat → Bool) (data : List UInt8) :
    let running := (s.init true).2.appendAll records
    let result := (running.facing sharedIo polls).append data
    let refused := data.length = 0 ∨ SECTOR_SIZE < data.length
    result.1 = false → result.2.flash.cells = running.flash.cells →
      (refused ∨ running.ExtremesLead ∧ ¬ running.AtDirtySector → result.2.index = running.index) ∧
      (running.InWindow → result.2.index = running.index → refused ∨ running.ExtremesLead ∧ ¬ running.AtDirtySector) := by
  intro running result refused failed unchanged
  obtain ⟨ring, represents, area, _, shape⟩ := appendAll_ring config working erased records
  have kept := failed_append_recovers represents sharedIo polls data failed unchanged
  rw [← or_assoc] at kept
  rcases shape with ⟨bare, start⟩ | filled
  · have validConfig := represents.imaged.config
    have again : running.rebuildIndexFromFlash.index = running.index := by
      rw [rebuild_erased validConfig bare]
      exact start.symm
    exact ⟨fun _ => kept.mpr (.inr again), fun _ _ => .inr (bare.recovers validConfig start)⟩
  · refine ⟨fun condition => kept.mpr (condition.imp_right fun ⟨leads, clean⟩ => represents.recovers filled leads clean), ?_⟩
    intro window same
    exact (kept.mp same).imp_right fun restored =>
      ⟨represents.recovers_leads filled window restored, represents.recovers_clean filled restored⟩

/-- With ascending numbers only the dirty sector start matters. -/
theorem failed_append_ascending {s : FlashLogStorage} (config : isConfigValid s.config = true) (working : s.Working)
    (erased : s.Erased) (records : List Record) (ascending : SerialOrder.Ascending (records.map Record.seq))
    (sharedIo polls : Nat → Bool) (data : List UInt8) :
    let running := (s.init true).2.appendAll records
    let result := (running.facing sharedIo polls).append data
    result.1 = false → result.2.flash.cells = running.flash.cells →
      (result.2.index = running.index ↔ data.length = 0 ∨ SECTOR_SIZE < data.length ∨ ¬ running.AtDirtySector) := by
  intro running result failed unchanged
  obtain ⟨ring, represents, _, ordered, shape⟩ := appendAll_ring config working erased records
  rw [failed_append_recovers represents sharedIo polls data failed unchanged]
  refine or_congr_right (or_congr_right ?_)
  rcases shape with ⟨bare, start⟩ | filled
  · have validConfig := represents.imaged.config
    refine iff_of_true ?_ (bare.recovers validConfig start).2
    rw [rebuild_erased validConfig bare]
    exact start.symm
  · exact ⟨represents.recovers_clean filled, represents.recovers filled (represents.leads_of_ascending (ordered ascending))⟩

/-- A log of fifty frames that fill the first sector of two: the second is next, and the recovery finds the index. -/
theorem fifty_frames :
    ∃ running, ((blankStorage ⟨0, 8192⟩).init true).2.appendAll (sectorRecords 0) = running ∧
      running.config = ⟨0, 8192⟩ ∧ running.Working ∧ Represents running (oneSector (sectorRecords 0)) ∧
      running.validFrameCount = 50 ∧
      running.writeAddr = running.config.base 1 ∧ running.ExtremesLead ∧ ¬ running.AtDirtySector := by
  obtain ⟨running, isRunning⟩ : ∃ running,
    ((blankStorage ⟨0, 8192⟩).init true).2.appendAll (sectorRecords 0) = running := ⟨_, rfl⟩
  obtain ⟨area, represents, counted⟩ := appendAll_oneSector (sectorRecords 0) (by simp [sectorRecords])
    (Nat.le_of_eq (length_sectorRecords 0))
  have working := (appendAll_blank (sectorRecords 0)).2.1
  rw [isRunning] at area represents counted working
  have write : running.writeAddr = running.config.base 1 := by
    rw [represents.write]
    simp [oneSector, RingLog.used, length_sectorRecords, area, Config.next, Config.sectors]
  have ordered : SerialOrder.Ascending (((oneSector (sectorRecords 0)).live running.config).map fun place => place.2.seq) := by
    rw [area, live_oneSector, map_seq_placed]
    exact sectorRecords_ascending.sublist ((List.sublist_append_left _ _).map _)
  refine ⟨running, isRunning, area, working, represents, counted, write, represents.leads_of_ascending ordered, ?_⟩
  rintro ⟨_, _, dirty⟩
  have held := represents.imaged.holds 1 (by rw [area]; decide)
  exact dirty (held.erased (by simp [oneSector, Sector.bytes_whole, write]) (by omega))

/-- There an append to the second sector is not granted the lock. -/
theorem failed_append_keeps_fifty :
    ∃ running, ((blankStorage ⟨0, 8192⟩).init true).2.appendAll (sectorRecords 0) = running ∧
      running.validFrameCount = 50 ∧
      let result := (running.facing (fun _ => false) fun _ => true).append (sampleRecord 50 5 five_fits).frame
      result.1 = false ∧ result.2.index = running.index := by
  obtain ⟨running, isRunning, area, _, represents, counted, write, leads, clean⟩ := fifty_frames
  have kept := failed_append_index_iff (s := blankStorage ⟨0, 8192⟩) (by decide) (blankStorage_working _)
    (blankStorage_erased _) (sectorRecords 0) (fun _ => false) (fun _ => true) (sampleRecord 50 5 five_fits).frame
  obtain ⟨u, refused, _, sameFlash, _⟩ := append_refused (s := running.facing (fun _ => false) fun _ => true)
    represents.imaged.config (by rw [facing, area]; decide) write represents.initialized represents.locked rfl
    (sampleRecord 50 5 five_fits)
  refine ⟨running, isRunning, counted, ?_⟩
  rw [isRunning] at kept
  dsimp only at kept ⊢
  rw [refused] at kept ⊢
  refine ⟨rfl, (kept rfl ?_).1 (.inr ⟨leads, clean⟩)⟩
  have sameCells := congrArg FlashDriver.cells sameFlash
  rw [rebuildIndexFromFlash_keeps]
  exact sameCells

private theorem refused_leaves_sector {running : FlashLogStorage} {ring : RingLog} (represents : Represents running ring)
    (area : running.config = ⟨0, 8192⟩) (filled : 0 < ring.used ring.current) (write : running.writeAddr = 0)
    (cell : running.flash.cells 0 = 0xA5) (record : Record) :
    let result := (running.facing (fun _ => false) fun _ => true).append record.frame
    result.1 = false ∧ result.2.flash.cells = running.flash.cells ∧ result.2.index ≠ running.index := by
  intro result
  obtain ⟨u, refused, sameConfig, sameFlash, _⟩ := append_refused (s := running.facing (fun _ => false) fun _ => true)
    represents.imaged.config (k := 0) (by rw [facing, area]; decide) (by rw [facing, area]; exact write)
    represents.initialized represents.locked rfl record
  have sameCells := congrArg FlashDriver.cells sameFlash
  have isResult : result = (false, u.rebuildIndexFromFlash) := refused
  have dirty : running.AtDirtySector := by
    rw [AtDirtySector, write, cell, area]
    exact ⟨by decide, rfl, by decide⟩
  rw [isResult]
  refine ⟨rfl, ?_, ?_⟩
  · rw [rebuildIndexFromFlash_keeps]
    exact sameCells
  · rw [rebuild_index_congr represents.imaged.config sameConfig sameCells]
    exact fun restored => represents.recovers_clean filled restored dirty

/-- In a log whose sectors are both full a lock that is not granted moves the write address
to the second sector, though no cell changed. -/
theorem failed_append_leaves_sector :
    let running := ((blankStorage ⟨0, 8192⟩).init true).2.appendAll (sectorRecords 0 ++ sectorRecords 50)
    let result := (running.facing (fun _ => false) fun _ => true).append (sampleRecord 100 5 (by decide)).frame
    result.1 = false ∧ result.2.flash.cells = running.flash.cells ∧ result.2.index ≠ running.index := by
  intro running
  have run : running = lapped := rfl
  obtain ⟨related, area, filled, write, cell⟩ := lapped_ring
  rw [run]
  exact refused_leaves_sector related area filled write cell (sampleRecord 100 5 (by decide))

end PicoWLogger
