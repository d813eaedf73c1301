import PicoWLogger.Proofs.RebuildIndex
import PicoWLogger.Proofs.RingRefinement

/-! The frames a recovery scan finds, as a list in the order of their addresses. It is scanned in
parts where no frame lies across a border, and a part depends on its own cells only. -/

namespace PicoWLogger
open FlashLogStorage

namespace FlashLogStorage

/-- The frames the recovery scan finds. -/
def found (s : FlashLogStorage) : List (Scanner.Hit LogFrameHeader) :=
  s.scanner.hits s.config.endAddr s.config.startAddr

/-- No frame found lies across this address. -/
def Splits (s : FlashLogStorage) (addr : Nat) : Prop :=
  ∀ hit ∈ s.found, hit.addr + hit.width ≤ addr ∨ addr ≤ hit.addr

variable {s t : FlashLogStorage}

theorem isValidFrameAt_alike (config : isConfigValid s.config = true) (sameConfig : t.config = s.config) {low high : Nat}
    (same : ∀ a, low ≤ a → a < high → t.flash.cells a = s.flash.cells a) (a : Nat) (header : LogFrameHeader) (size : Nat)
    (above : low ≤ a) (below : a + size ≤ high) :
    s.isValidFrameAt a = some (header, size) ↔ t.isValidFrameAt a = some (header, size) := by
  have cells : t.flash.cellsFrom a size = s.flash.cellsFrom a size :=
    FlashDriver.cellsFrom_congr fun x first last => same x (by omega) (by omega)
  rw [isValidFrameAt_iff config, isValidFrameAt_iff (by rwa [sameConfig]), sameConfig, cells]

theorem hits_inside (config : isConfigValid s.config = true) {stop addr : Nat} {hit : Scanner.Hit LogFrameHeader}
    (member : hit ∈ s.scanner.hits stop addr) :
    s.config.startAddr ≤ hit.addr ∧ hit.addr + hit.width ≤ s.config.endAddr ∧ 0 < hit.width ∧
      s.isValidFrameAt hit.addr = some (hit.item, hit.width) := by
  have valid : s.isValidFrameAt hit.addr = some (hit.item, hit.width) := (Scanner.mem_hits member).2.2
  obtain ⟨above, below, _⟩ := (isValidFrameAt_iff config _ _ _).mp valid
  exact ⟨above, below, s.scanner.advances valid, valid⟩

theorem found_split {addr : Nat} (splits : s.Splits addr) (above : s.config.startAddr ≤ addr)
    (below : addr ≤ s.config.endAddr) :
    s.found = s.scanner.hits addr s.config.startAddr ++ s.scanner.hits s.config.endAddr addr :=
  Scanner.hits_split above below splits

theorem Splits.ends {addr : Nat} (splits : s.Splits addr) (above : s.config.startAddr ≤ addr)
    (below : addr ≤ s.config.endAddr) {hit : Scanner.Hit LogFrameHeader}
    (member : hit ∈ s.scanner.hits addr s.config.startAddr) : hit.addr + hit.width ≤ addr := by
  have inFound : hit ∈ s.found := by
    rw [found_split splits above below]
    exact List.mem_append_left _ member
  have before := (Scanner.mem_hits member).2.1
  rcases splits hit inFound with ends | starts
  · exact ends
  · omega

theorem Splits.middle {addr stop : Nat} (first : s.Splits addr) (second : s.Splits stop) (above : s.config.startAddr ≤ addr)
    (ordered : addr ≤ stop) (below : stop ≤ s.config.endAddr) :
    s.scanner.hits s.config.endAddr addr = s.scanner.hits stop addr ++ s.scanner.hits s.config.endAddr stop := by
  apply Scanner.hits_split ordered below
  intro hit member
  apply second hit
  rw [found_split first above (by omega)]
  exact List.mem_append_right _ member

theorem hits_front (config : isConfigValid s.config = true) (sameConfig : t.config = s.config) {addr : Nat}
    (here : s.Splits addr) (there : t.Splits addr) (above : s.config.startAddr ≤ addr) (below : addr ≤ s.config.endAddr)
    (same : ∀ a, s.config.startAddr ≤ a → a < addr → t.flash.cells a = s.flash.cells a) :
    t.scanner.hits addr s.config.startAddr = s.scanner.hits addr s.config.startAddr := by
  refine (Scanner.hits_congr (S := s.scanner) (T := t.scanner) ?_ ?_ ?_).symm
  · intro hit member
    exact here.ends above below member
  · intro hit member
    rw [← sameConfig] at above below member
    exact there.ends above below member
  · exact isValidFrameAt_alike config sameConfig same

theorem hits_back (config : isConfigValid s.config = true) (sameConfig : t.config = s.config) (addr : Nat)
    (same : ∀ a, addr ≤ a → a < s.config.endAddr → t.flash.cells a = s.flash.cells a) :
    t.scanner.hits s.config.endAddr addr = s.scanner.hits s.config.endAddr addr := by
  have config' : isConfigValid t.config = true := by rwa [sameConfig]
  refine (Scanner.hits_congr (S := s.scanner) (T := t.scanner) ?_ ?_ ?_).symm
  · intro hit member
    exact (hits_inside config member).2.1
  · intro hit member
    rw [← sameConfig]
    exact (hits_inside config' member).2.1
  · exact isValidFrameAt_alike config sameConfig same

theorem hits_blank (config : isConfigValid s.config = true) {addr stop : Nat}
    (blank : ∀ a, addr ≤ a → a < stop → s.flash.cells a = 0xFF) : s.scanner.hits stop addr = [] := by
  by_cases ordered : addr ≤ stop
  · refine (Scanner.Walk.blank ordered ?_).hits_eq
    intro a above below
    apply isValidFrameAt_of_head config
    rw [blank a above below]
    decide
  · exact Scanner.hits_stop (by omega)

theorem readFrame_found (config : isConfigValid s.config = true) (locked : s.mutexCreated = true)
    {hit : Scanner.Hit LogFrameHeader} (member : hit ∈ s.found) : (s.readFrame hit.addr LOG_FRAME_MAX_SIZE).isSome := by
  rw [readFrame_valid config locked (hits_inside config member).2.2.2]
  rfl

/-- From an address that the scan arrives at, the dump loop sends frames the scan finds. -/
theorem sendLoop_found (config : isConfigValid s.config = true) (locked : s.mutexCreated = true) {skip addr scanned seen : Nat}
    (arrives : ∃ items, s.scanner.Walk s.config.startAddr items addr) (below : addr < s.config.endAddr)
    {frame : List UInt8} (sent : frame ∈ (s.sendLoop skip addr scanned seen).2) :
    ∃ hit ∈ s.found, frame = s.flash.cellsFrom hit.addr hit.width := by
  have ordered := ((isConfigValid_iff _).mp config).1
  obtain ⟨_, _, _, flashEnd⟩ := Config.shape config
  have wrapped {next : Nat} (onWalk : ∃ items, s.scanner.Walk s.config.startAddr items next) :
      (∃ items, s.scanner.Walk s.config.startAddr items (s.wrapAddress next)) ∧ s.wrapAddress next < s.config.endAddr := by
    rw [wrapAddress]
    split
    · exact ⟨⟨[], .stop _⟩, ordered⟩
    · exact ⟨onWalk, by omega⟩
  -- a frame that is read here is one the scan finds here
  have here {at' : Nat} {header : LogFrameHeader} {size : Nat} {read : List UInt8}
      (onWalk : ∃ items, s.scanner.Walk s.config.startAddr items at') (valid : s.isValidFrameAt at' = some (header, size))
      (readBack : s.readFrame at' LOG_FRAME_MAX_SIZE = some read) :
      (⟨at', header, size⟩ : Scanner.Hit LogFrameHeader) ∈ s.found ∧ read = s.flash.cellsFrom at' size ∧
        ∃ items, s.scanner.Walk s.config.startAddr items (u32 (at' + read.length)) := by
    obtain ⟨items, walk⟩ := onWalk
    obtain ⟨_, inside, _⟩ := (isValidFrameAt_iff config _ _ _).mp valid
    have positive := s.scanner.advances valid
    rw [readFrame_valid config locked valid] at readBack
    obtain rfl := Option.some.inj readBack
    refine ⟨walk.mem_hits (by omega) valid, rfl, items ++ [⟨at', header, size⟩], ?_⟩
    have next : u32 (at' + (s.flash.cellsFrom at' size).length) = at' + size := by
      rw [FlashDriver.length_cellsFrom, u32]
      omega
    rw [next]
    exact walk.trans (.single valid)
  fun_induction s.sendLoop skip addr scanned seen with
  | case1 => cases sent
  | case2 addr scanned seen left header size valid read readBack shown last =>
    obtain ⟨found, same, _⟩ := here arrives valid readBack
    have isRead : frame ∈ shown := sent
    simp only [shown] at isRead
    split at isRead
    · exact ⟨_, found, (List.mem_singleton.mp isRead).trans same⟩
    · cases isRead
  | case3 addr scanned seen left header size valid read readBack shown notLast later ih =>
    obtain ⟨found, same, next⟩ := here arrives valid readBack
    rcases List.mem_append.mp sent with isRead | after
    · simp only [shown] at isRead
      split at isRead
      · exact ⟨_, found, (List.mem_singleton.mp isRead).trans same⟩
      · cases isRead
    · obtain ⟨onWalk, inside⟩ := wrapped next
      exact ih onWalk inside after
  | case4 addr scanned seen left missing ih =>
    obtain ⟨items, walk⟩ := arrives
    have next : u32 (addr + 1) = addr + 1 := by
      rw [u32]
      omega
    obtain ⟨onWalk, inside⟩ := wrapped ⟨items ++ [], walk.trans (.skip missing (.stop (addr + 1)))⟩
    rw [next] at ih sent
    exact ih onWalk inside sent
  | case5 => cases sent

/-- The index describes the flash: it counts the frames the scan finds, and knows two of them
as the oldest and the newest. -/
structure Indexes (s : FlashLogStorage) : Prop where
  count : s.validFrameCount = s.found.length
  oldest : s.validFrameCount ≠ 0 → ∃ hit ∈ s.found, hit.addr = s.oldestAddr
  newest : s.validFrameCount ≠ 0 → ∃ hit ∈ s.found, hit.addr = s.newestAddr

structure Located (s : FlashLogStorage) : Prop extends Indexes s where
  above : s.config.startAddr ≤ s.writeAddr
  below : s.writeAddr < s.config.endAddr

theorem wrapAddress_inside (config : isConfigValid s.config = true) {addr : Nat} (above : s.config.startAddr ≤ addr) :
    s.config.startAddr ≤ s.wrapAddress addr ∧ s.wrapAddress addr < s.config.endAddr := by
  have ordered := ((isConfigValid_iff _).mp config).1
  rw [wrapAddress]
  split
  · exact ⟨Nat.le_refl _, ordered⟩
  · exact ⟨above, by omega⟩

theorem Located.escapeDirty (located : Located s) (config : isConfigValid s.config = true) : Located s.escapeDirty := by
  rw [FlashLogStorage.escapeDirty]
  split
  · have next : s.writeAddr ≤ nextSectorAddress s.writeAddr := by
      have inside := located.below
      obtain ⟨_, _, _, flashEnd⟩ := Config.shape config
      simp only [nextSectorAddress, SECTOR_SIZE, u32]
      split <;> omega
    obtain ⟨above, below⟩ := wrapAddress_inside config (located.above.trans next)
    exact ⟨⟨located.count, located.oldest, located.newest⟩, above, below⟩
  · exact located

/-- The recovery scan leaves an index that describes the flash. -/
theorem rebuild_located (config : isConfigValid s.config = true) : Located s.rebuildIndexFromFlash := by
  have ordered := ((isConfigValid_iff _).mp config).1
  by_cases nothing : s.found = []
  · rw [rebuild_none nothing]
    have blank : Located (s.withIndex (startIndex s.config)) :=
      ⟨⟨(congrArg List.length nothing).symm, fun some' => absurd rfl some', fun some' => absurd rfl some'⟩,
        Nat.le_refl _, ordered⟩
    exact blank.escapeDirty config
  · obtain ⟨oldest, first, newest, last, rebuilt⟩ := rebuild_mem (s := s) rfl nothing
    obtain ⟨above, below, _, _⟩ := hits_inside config last
    obtain ⟨_, _, _, flashEnd⟩ := Config.shape config
    rw [rebuilt]
    have wrap : u32 (newest.addr + newest.width) = newest.addr + newest.width := by
      rw [u32]
      omega
    have write := wrapAddress_inside config (show s.config.startAddr ≤ u32 (newest.addr + newest.width) by omega)
    have scanned : Located (s.withIndex (s.scannedIndex oldest newest s.found.length)) :=
      ⟨⟨rfl, fun _ => ⟨oldest, first, rfl⟩, fun _ => ⟨newest, last, rfl⟩⟩, write.1, write.2⟩
    exact scanned.escapeDirty config

/-- Where the index describes the flash, a full dump sends frames the scan finds. -/
theorem Indexes.sent_found (indexes : Indexes s) (config : isConfigValid s.config = true) (locked : s.mutexCreated = true)
    {frame : List UInt8} (sent : frame ∈ s.sendFramesOldestFirst.2) :
    ∃ hit ∈ s.found, frame = s.flash.cellsFrom hit.addr hit.width := by
  rw [sendFramesOldestFirst] at sent
  split at sent
  · cases sent
  · split at sent
    · cases sent
    · split at sent
      · cases sent
      · next some' =>
        obtain ⟨hit, member, isOldest⟩ := indexes.oldest some'
        obtain ⟨_, below, positive, _⟩ := hits_inside config member
        rw [← isOldest] at sent
        exact sendLoop_found config locked (Scanner.Walk.to_hit member) (by omega) sent

private theorem searchOldest_pass (config : isConfigValid s.config = true) {addr stop scanned : Nat} (ordered : addr ≤ stop)
    (below : stop ≤ s.config.endAddr) (left : scanned + (stop - addr) ≤ s.config.endAddr - s.config.startAddr)
    (nothing : s.scanner.hits stop addr = []) :
    s.searchOldest (s.wrapAddress addr) scanned = s.searchOldest (s.wrapAddress stop) (scanned + (stop - addr)) := by
  have passed := searchOldest_blank config addr (stop - addr) scanned (by omega) (by omega)
    fun a above before => Scanner.hits_nil nothing above (by omega)
  rwa [Nat.add_sub_cancel' ordered] at passed

private theorem searchOldest_first (config : isConfigValid s.config = true) {addr stop scanned : Nat}
    (below : stop ≤ s.config.endAddr) (left : scanned + (stop - addr) ≤ s.config.endAddr - s.config.startAddr)
    {first : Scanner.Hit LogFrameHeader} {rest : List (Scanner.Hit LogFrameHeader)}
    (hits : s.scanner.hits stop addr = first :: rest) :
    s.searchOldest (s.wrapAddress addr) scanned = some first.addr := by
  obtain ⟨low, high, valid⟩ := Scanner.mem_hits (hits ▸ List.mem_cons_self)
  have stays : s.wrapAddress first.addr = first.addr := by rw [wrapAddress, if_neg (by omega)]
  have accepted : (s.isValidFrameAt first.addr).isSome = true := by
    rw [show s.isValidFrameAt first.addr = _ from valid]
    rfl
  rw [searchOldest_pass config low (by omega) (by omega) (Scanner.hits_first hits), stays, searchOldest, if_pos (by omega),
    if_pos accepted]

/-- Behind a stretch the search finds a frame outside it, if there is one. -/
theorem searchOldest_around (config : isConfigValid s.config = true) {low high : Nat} (above : s.config.startAddr ≤ low)
    (ordered : low ≤ high) (below : high ≤ s.config.endAddr)
    (some' : s.scanner.hits low s.config.startAddr ++ s.scanner.hits s.config.endAddr high ≠ []) :
    ∃ hit ∈ s.scanner.hits low s.config.startAddr ++ s.scanner.hits s.config.endAddr high,
      s.searchOldest (s.wrapAddress high) 0 = some hit.addr := by
  have nonempty := ((isConfigValid_iff _).mp config).1
  cases back : s.scanner.hits s.config.endAddr high with
  | cons first rest =>
    refine ⟨first, List.mem_append_right _ List.mem_cons_self, ?_⟩
    exact searchOldest_first config (Nat.le_refl _) (by omega) back
  | nil =>
    rw [back] at some'
    rw [List.append_nil] at some' ⊢
    obtain ⟨first, rest, front⟩ := List.exists_cons_of_ne_nil some'
    have wraps : s.wrapAddress s.config.endAddr = s.wrapAddress s.config.startAddr := by
      rw [wrapAddress, wrapAddress, if_pos (Nat.le_refl _), if_neg (by omega)]
    refine ⟨first, by rw [front]; exact List.mem_cons_self, ?_⟩
    rw [searchOldest_pass config below (Nat.le_refl _) (by omega) back, wraps]
    exact searchOldest_first config (by omega) (by omega) front

/-- The frames outside the stretch that an append takes. -/
def others (s : FlashLogStorage) (low high : Nat) : List (Scanner.Hit LogFrameHeader) :=
  s.scanner.hits low s.config.startAddr ++ s.scanner.hits s.config.endAddr high

/-- Giving up a sector leaves the index of the frames outside it. -/
theorem Indexes.invalidate (indexes : Indexes s) (config : isConfigValid s.config = true) {k : Nat}
    (inside : k < s.config.sectors) (first : s.Splits (s.config.base k)) (second : s.Splits (s.config.base k + 4096)) :
    let t := s.invalidateFramesInErasedSector (s.config.base k)
    let left := s.others (s.config.base k) (s.config.base k + 4096)
    t.validFrameCount = left.length ∧ (left ≠ [] → ∃ hit ∈ left, hit.addr = t.oldestAddr) := by
  intro t left
  obtain ⟨_, _, _, flashEnd⟩ := Config.shape config
  have sector := Config.base_inside config inside
  have parts : s.found = s.scanner.hits (s.config.base k) s.config.startAddr ++
      (s.scanner.hits (s.config.base k + 4096) (s.config.base k) ++
        s.scanner.hits s.config.endAddr (s.config.base k + 4096)) := by
    rw [found_split first sector.1 (by omega), first.middle second sector.1 (by omega) sector.2.1]
  have counted := countSector_eq config inside
  have length : left.length = (s.scanner.hits (s.config.base k) s.config.startAddr).length +
      (s.scanner.hits s.config.endAddr (s.config.base k + 4096)).length := List.length_append
  have count := indexes.count
  rw [parts, List.length_append, List.length_append] at count
  have total : s.validFrameCount = s.countSector (s.config.base k) + left.length := by omega
  have search (some' : left ≠ []) := searchOldest_around (s := { s with validFrameCount := left.length }) config sector.1
    (by omega : s.config.base k ≤ s.config.base k + 4096) sector.2.1 some'
  obtain ⟨leaves, replaced⟩ := invalidate_leaves (by omega) total fun some' => by
    obtain ⟨hit, _, found⟩ := search fun none' => some' (by rw [none']; rfl)
    exact ⟨hit.addr, found⟩
  refine ⟨leaves, fun some' => ?_⟩
  have replaced := replaced fun none' => some' (List.eq_nil_of_length_eq_zero none')
  split at replaced
  next =>
    obtain ⟨hit, member, found⟩ := search some'
    exact ⟨hit, member, Option.some.inj (found.symm.trans replaced)⟩
  next held =>
    have positive := List.length_pos_iff.mpr some'
    obtain ⟨hit, member, isOldest⟩ := indexes.oldest (by omega)
    refine ⟨hit, ?_, isOldest.trans replaced.symm⟩
    rw [parts] at member
    rcases List.mem_append.mp member with before | behind
    · exact List.mem_append_left _ before
    · rcases List.mem_append.mp behind with within | after
      · obtain ⟨low, high, _⟩ := Scanner.mem_hits within
        exact absurd ⟨by omega, by omega⟩ held
      · exact List.mem_append_right _ after

end FlashLogStorage

end PicoWLogger
