import PicoWLogger.Lib.Machine
import PicoWLogger.Proofs.EraseOutcome
import PicoWLogger.Proofs.FailedAppend
import PicoWLogger.Proofs.FoundFrames

/-! Whether the index describes the flash behind an erase of the log area. An erase that stops early
keeps the index, whatever it has taken from the flash. -/

namespace PicoWLogger
open FlashLogStorage

namespace FlashLogStorage

/-- What holds of the object between the calls of a run. -/
structure Kept (s : FlashLogStorage) : Prop extends Located s where
  config : isConfigValid s.config = true
  initialized : s.initialized = true
  locked : s.mutexCreated = true
  power : s.flash.power = none

/-- An append from `s` to `t` that stores its frame at `addr`. No frame found lies across its address
or the end of its sector; between them, unless it begins the sector, none is found before, and
behind it only one at its address. -/
structure Apart (s t : FlashLogStorage) (addr : Nat) : Prop where
  before : s.Splits addr ∧ s.Splits (currentSectorEnd addr)
  after : t.Splits addr ∧ t.Splits (currentSectorEnd addr)
  vacant : isSectorStart addr = false → s.scanner.hits (currentSectorEnd addr) addr = []
  alone : ∀ hit ∈ t.scanner.hits (currentSectorEnd addr) addr, hit.addr = addr

section Append
variable {s : FlashLogStorage}

theorem Kept.place (kept : Kept s) (record : Record) :
    ∃ k < s.config.sectors, s.config.base k ≤ s.appendAddress record.size ∧
      s.appendAddress record.size + record.size ≤ s.config.base k + 4096 := by
  obtain ⟨k, inside, low, room, _⟩ := appendAddress_target kept.config kept.above kept.below (Nat.le_of_lt record.size_lt)
  exact ⟨k, inside, low, room⟩

/-- A frame stored leaves the cells in front of its address and behind its sector alone. -/
theorem stored_cells (power : s.flash.power = none) {base addr : Nat} (data : List UInt8) (aligned : base % 4096 = 0)
    (low : base ≤ addr) (high : addr + data.length ≤ base + 4096) (some' : 0 < data.length) {a : Nat}
    (outside : a < addr ∨ base + 4096 ≤ a) :
    ((s.begun addr).flash.programCells addr data).cells a = s.flash.cells a := by
  have kept : (s.begun addr).flash.cells a = s.flash.cells a := by
    cases begins : isSectorStart addr with
    | true =>
      have start : addr = base := by
        simp only [isSectorStart, SECTOR_SIZE, decide_eq_true_eq] at begins
        omega
      simp only [begun, begins, ↓reduceIte, FlashDriver.eraseCells, power, SECTOR_SIZE]
      rw [if_neg (by omega)]
    | false => simp only [begun, begins, Bool.false_eq_true, ↓reduceIte]
  simp only [FlashDriver.programCells, FlashDriver.reaching, begun_power power, kept]
  by_cases behind : addr ≤ a
  · rw [if_pos behind, List.getD_eq_default _ _ (by omega)]
    exact and_erased _
  · rw [if_neg behind]

theorem Kept.begun (kept : Kept s) {k : Nat} (inside : k < s.config.sectors) {addr : Nat} (low : s.config.base k ≤ addr)
    (high : addr < s.config.base k + 4096) (here : s.Splits addr) (ends : s.Splits (s.config.base k + 4096))
    (vacant : isSectorStart addr = false → s.scanner.hits (s.config.base k + 4096) addr = []) :
    let left := s.others addr (s.config.base k + 4096)
    (s.begun addr).validFrameCount = left.length ∧
      (left ≠ [] → ∃ hit ∈ left, hit.addr = (s.begun addr).oldestAddr) := by
  intro left
  have sector := Config.base_inside kept.config inside
  cases begins : isSectorStart addr with
  | true =>
    have start : addr = s.config.base k := by
      simp only [isSectorStart, SECTOR_SIZE, decide_eq_true_eq] at begins
      omega
    simp only [FlashLogStorage.begun, begins, ↓reduceIte]
    simp only [left]
    rw [start] at here ⊢
    exact kept.invalidate kept.config inside here ends
  | false =>
    have whole : s.found = left := by
      rw [found_split here (by omega) (by omega), here.middle ends (by omega) (by omega) sector.2.1, vacant begins,
        List.nil_append]
      rfl
    have same : s.begun addr = s := by simp only [FlashLogStorage.begun, begins, Bool.false_eq_true, ↓reduceIte]
    rw [same, ← whole]
    refine ⟨kept.count, fun some' => kept.oldest ?_⟩
    rw [kept.count]
    exact fun empty => some' (List.eq_nil_of_length_eq_zero empty)

theorem found_stored (config : isConfigValid s.config = true) {u : FlashLogStorage} (sameConfig : u.config = s.config)
    {k : Nat} (inside : k < s.config.sectors) {addr : Nat} (low : s.config.base k ≤ addr)
    (high : addr < s.config.base k + 4096) (before : s.Splits addr)
    (after : u.Splits addr ∧ u.Splits (s.config.base k + 4096))
    (cells : ∀ a, a < addr ∨ s.config.base k + 4096 ≤ a → u.flash.cells a = s.flash.cells a)
    {header : LogFrameHeader} {size : Nat} (valid : u.isValidFrameAt addr = some (header, size))
    (alone : ∀ hit ∈ u.scanner.hits (s.config.base k + 4096) addr, hit.addr = addr) :
    u.found = s.scanner.hits addr s.config.startAddr ++
      ⟨addr, header, size⟩ :: s.scanner.hits s.config.endAddr (s.config.base k + 4096) := by
  have sector := Config.base_inside config inside
  have here : u.scanner.hits (s.config.base k + 4096) addr = [⟨addr, header, size⟩] := by
    have first := Scanner.hits_hit (S := u.scanner) high valid
    have forward := u.scanner.advances valid
    rw [first] at alone ⊢
    refine congrArg _ (List.eq_nil_iff_forall_not_mem.mpr fun hit member => ?_)
    have same := alone hit (List.mem_cons_of_mem _ member)
    have behind := (Scanner.mem_hits member).1
    omega
  have front : u.scanner.hits addr s.config.startAddr = s.scanner.hits addr s.config.startAddr :=
    hits_front config sameConfig before after.1 (by omega) (by omega) fun a _ before => cells a (.inl before)
  have back : u.scanner.hits s.config.endAddr (s.config.base k + 4096) =
      s.scanner.hits s.config.endAddr (s.config.base k + 4096) :=
    hits_back config sameConfig _ fun a above _ => cells a (.inr above)
  have whole := found_split after.1 (by rw [sameConfig]; omega) (by rw [sameConfig]; omega)
  have rest := after.1.middle after.2 (by rw [sameConfig]; omega) (by omega) (by rw [sameConfig]; omega)
  rw [sameConfig] at whole rest
  rw [whole, rest, front, here, back]
  rfl

/-- The frame stored last joins the index of those left alone. -/
theorem Indexes.added {u : FlashLogStorage} {front back : List (Scanner.Hit LogFrameHeader)}
    {hit : Scanner.Hit LogFrameHeader} (found : u.found = front ++ hit :: back) (header : LogFrameHeader)
    (count : u.validFrameCount = (front ++ back).length)
    (oldest : front ++ back ≠ [] → ∃ hit ∈ front ++ back, hit.addr = u.oldestAddr) :
    Indexes (u.updateIndexAfterAppend hit.addr header) := by
  have added : hit ∈ u.found := by
    rw [found]
    exact List.mem_append_right _ List.mem_cons_self
  have length : u.found.length = u.validFrameCount + 1 := by
    rw [found, List.length_append, List.length_cons, count, List.length_append, Nat.add_assoc]
  by_cases empty : u.validFrameCount = 0
  · have updated : u.updateIndexAfterAppend hit.addr header =
        { u with oldestAddr := hit.addr, newestAddr := hit.addr, newestSeq := header.seq, validFrameCount := 1 } := by
      rw [updateIndexAfterAppend, if_pos empty]
    rw [updated]
    exact ⟨by rw [empty] at length; exact length.symm, fun _ => ⟨_, added, rfl⟩, fun _ => ⟨_, added, rfl⟩⟩
  · have updated : u.updateIndexAfterAppend hit.addr header =
        { u with newestAddr := hit.addr, newestSeq := header.seq, validFrameCount := u.validFrameCount + 1 } := by
      rw [updateIndexAfterAppend, if_neg empty]
    obtain ⟨first, member, isOldest⟩ := oldest fun none' => empty (by rw [count, none']; rfl)
    have stays : first ∈ u.found := by
      rw [found]
      rcases List.mem_append.mp member with front | back
      · exact List.mem_append_left _ front
      · exact List.mem_append_right _ (List.mem_cons_of_mem _ back)
    rw [updated]
    exact ⟨length.symm, fun _ => ⟨first, stays, isOldest⟩, fun _ => ⟨_, added, rfl⟩⟩

theorem Kept.stored (kept : Kept s) {record : Record} {polls : Nat → Bool} {requests : List FlashRequest}
    {sharedIo : Nat → Bool} {header : LogFrameHeader} {size : Nat} {u : FlashLogStorage}
    (isU : u = { s.written (s.appendAddress record.size) record.frame requests with
      flash := (s.written (s.appendAddress record.size) record.frame requests).flash.answering polls requests, sharedIo })
    (valid : u.isValidFrameAt (s.appendAddress record.size) = some (header, size))
    (apart : Apart s (u.updateIndexAfterAppend (s.appendAddress record.size) header) (s.appendAddress record.size)) :
    Kept (u.updateIndexAfterAppend (s.appendAddress record.size) header) := by
  obtain ⟨k, inside, low, high⟩ := kept.place record
  obtain ⟨addr, isAddr⟩ : ∃ addr, s.appendAddress record.size = addr := ⟨_, rfl⟩
  rw [isAddr] at isU valid apart low high ⊢
  have config := kept.config
  have positive := record.size_pos
  have length := record.length_frame
  have sector := Config.base_inside config inside
  have ends := currentSectorEnd_inside config inside low (by omega)
  obtain ⟨⟨here, endsBefore⟩, after, vacant, alone⟩ := apart
  rw [ends] at endsBefore after vacant alone
  have keeps := written_keeps s addr record.frame requests
  have sameConfig : u.config = s.config := by
    rw [isU, keeps]
    rfl
  have retains := Retains.updateIndex u addr header
  have sameFound : (u.updateIndexAfterAppend addr header).found = u.found := by
    rw [updateIndex_keeps]
    rfl
  simp only [Splits, sameFound] at after
  have sameScan : (u.updateIndexAfterAppend addr header).scanner = u.scanner := by
    rw [updateIndex_keeps]
    rfl
  rw [sameScan] at alone
  have cells (a : Nat) (outside : a < addr ∨ s.config.base k + 4096 ≤ a) : u.flash.cells a = s.flash.cells a := by
    rw [isU]
    exact stored_cells kept.power record.frame sector.2.2 low (by omega) (by omega) outside
  have found := found_stored config sameConfig inside low (by omega) here after cells valid alone
  obtain ⟨count, oldest⟩ := kept.begun inside low (by omega) here endsBefore vacant
  have sameCount : u.validFrameCount = (s.begun addr).validFrameCount := by rw [isU]; rfl
  have sameOldest : u.oldestAddr = (s.begun addr).oldestAddr := by rw [isU]; rfl
  rw [← sameCount] at count
  rw [← sameOldest] at oldest
  have indexes : Indexes (u.updateIndexAfterAppend addr header) := Indexes.added found header count oldest
  have write : (u.updateIndexAfterAppend addr header).writeAddr = s.wrapAddress (addr + record.frame.length) := by
    rw [updateIndexAfterAppend, isU]
    split <;> rfl
  obtain ⟨above, below⟩ := wrapAddress_inside config (show s.config.startAddr ≤ addr + record.frame.length by omega)
  rw [← write, ← sameConfig, ← retains.config] at above below
  have kept' : u.initialized = s.initialized ∧ u.mutexCreated = s.mutexCreated ∧ u.flash.power = none := by
    rw [isU, keeps]
    refine ⟨rfl, rfl, ?_⟩
    simp [written, FlashDriver.programCells, begun_power kept.power]
  exact ⟨⟨indexes, above, below⟩, by rw [retains.config, sameConfig]; exact config,
    retains.initialized.trans (kept'.1.trans kept.initialized), retains.mutexCreated.trans (kept'.2.1.trans kept.locked), by
    rw [updateIndex_keeps]; exact kept'.2.2⟩

theorem Kept.rebuilt (config : isConfigValid s.config = true) (initialized : s.initialized = true)
    (locked : s.mutexCreated = true) (power : s.flash.power = none) : Kept s.rebuildIndexFromFlash := by
  have retains := Retains.rebuild s
  refine ⟨rebuild_located config, by rwa [retains.config], retains.initialized.trans initialized,
    retains.mutexCreated.trans locked, ?_⟩
  rw [rebuildIndexFromFlash_keeps]
  exact power

theorem Kept.append (kept : Kept s) (record : Record)
    (apart : (s.append record.frame).1 = true → Apart s (s.append record.frame).2 (s.appendAddress record.size)) :
    Kept (s.append record.frame).2 := by
  obtain ⟨k, inside, low, high⟩ := kept.place record
  have positive := record.size_pos
  have small := record.size_lt
  have length := record.length_frame
  have sector := Config.base_inside kept.config inside
  cases append_outcome kept.config kept.initialized kept.locked record.frame (by omega) (by omega)
    (congrArg s.appendAddress length) (by omega) with
  | failed index chip cells polls requests sharedIo same =>
    have power : chip.power = none := by
      rcases cells with rfl | ⟨part, _, rfl⟩
      · exact kept.power
      · simp [FlashDriver.programCells, begun_power kept.power]
    rw [same]
    exact Kept.rebuilt (s := s.broken index chip polls requests sharedIo) kept.config kept.initialized kept.locked power
  | stored polls requests sharedIo header size valid same =>
    rw [same] at apart ⊢
    exact kept.stored rfl valid (apart rfl)

end Append

section Erase
variable {s : FlashLogStorage}

/-- Where the erase of the log area stops, behind the sectors it empties. -/
def eraseStop (s : FlashLogStorage) : Nat := s.config.base (sectorsErased s.sharedIo s.flash.polls s.config.sectors)

/-- The erase finds every lock and poll answered, or takes no frame from the flash. -/
def Spared (s : FlashLogStorage) : Prop :=
  Answered s.sharedIo s.flash.polls s.config.sectors ∨ ∀ hit ∈ s.found, s.eraseStop ≤ hit.addr

theorem eraseStop_inside (config : isConfigValid s.config = true) :
    s.config.startAddr ≤ s.eraseStop ∧ s.eraseStop ≤ s.config.endAddr := by
  obtain ⟨_, area, _, _⟩ := Config.shape config
  have most := sectorsErased_le s.sharedIo s.flash.polls s.config.sectors
  simp only [eraseStop, Config.base]
  omega

theorem found_erased (config : isConfigValid s.config = true) {t : FlashLogStorage} (sameConfig : t.config = s.config)
    (blanked : Blanked s.flash t.flash s.config.startAddr (sectorsErased s.sharedIo s.flash.polls s.config.sectors)) :
    t.found = s.scanner.hits s.config.endAddr s.eraseStop := by
  obtain ⟨above, below⟩ := eraseStop_inside config
  have stop : s.eraseStop = s.config.startAddr + 4096 * sectorsErased s.sharedIo s.flash.polls s.config.sectors := rfl
  have front : t.scanner.Walk s.config.startAddr [] s.eraseStop := by
    refine .blank above fun a low high => isValidFrameAt_of_head (by rwa [sameConfig]) ?_
    rw [blanked a, if_pos (by omega)]
    decide
  have back := hits_back config sameConfig s.eraseStop fun a low high => by rw [blanked a, if_neg (by omega)]
  rw [← back, found, sameConfig]
  exact front.hits_append below

theorem Kept.eraseLogArea (kept : Kept s) (spared : s.Spared) : Kept s.eraseLogArea.2 := by
  have config := kept.config
  have ordered := ((isConfigValid_iff _).mp config).1
  obtain ⟨above, below⟩ := eraseStop_inside config
  obtain ⟨flash, sharedIo, outcome, _, supplied⟩ := eraseLogArea_outcome config kept.initialized kept.locked
  obtain ⟨power, blanked⟩ := supplied kept.power
  cases outcome with
  | erased answered same =>
    have left := found_erased config
      (t := { s.withIndex (startIndex s.config) with flash, sharedIo, maintenanceBusy := false }) rfl blanked
    have whole : s.eraseStop = s.config.endAddr := by
      rw [eraseStop, sectorsErased_answered answered]
      exact (Config.shape config).2.1.symm
    rw [whole, Scanner.hits_stop (Nat.le_refl _)] at left
    rw [same]
    have indexes : Indexes { s.withIndex (startIndex s.config) with flash, sharedIo, maintenanceBusy := false } :=
      ⟨by rw [left]; rfl, fun some' => absurd rfl some', fun some' => absurd rfl some'⟩
    exact ⟨⟨indexes, Nat.le_refl _, ordered⟩, config, kept.initialized, kept.locked, power⟩
  | stopped failed same =>
    have beyond : ∀ hit ∈ s.found, s.eraseStop ≤ hit.addr := spared.resolve_left failed
    have splits : s.Splits s.eraseStop := fun hit member => .inr (beyond hit member)
    have front : s.scanner.hits s.eraseStop s.config.startAddr = [] := by
      rw [List.eq_nil_iff_forall_not_mem]
      intro hit member
      have inFound := List.mem_append_left (s.scanner.hits s.config.endAddr s.eraseStop) member
      rw [← found_split splits above below] at inFound
      have low := beyond hit inFound
      have high := (Scanner.mem_hits member).2.1
      omega
    have left := found_erased config (t := { s with flash, sharedIo, maintenanceBusy := true }) rfl blanked
    have sameFound : found { s with flash, sharedIo, maintenanceBusy := true } = s.found := by
      rw [left, found_split splits above below, front, List.nil_append]
    rw [same]
    have indexes : Indexes { s with flash, sharedIo, maintenanceBusy := true } :=
      ⟨by rw [sameFound]; exact kept.count, by rw [sameFound]; exact kept.oldest, by rw [sameFound]; exact kept.newest⟩
    exact ⟨⟨indexes, kept.above, kept.below⟩, config, kept.initialized, kept.locked, power⟩

/-- An erase that stops behind frames it took still counts them. -/
theorem Kept.eraseLogArea_lost (kept : Kept s) (splits : s.Splits s.eraseStop) (lost : ¬ s.Spared) :
    s.eraseLogArea.2.validFrameCount ≠ s.eraseLogArea.2.found.length := by
  have config := kept.config
  obtain ⟨above, below⟩ := eraseStop_inside config
  obtain ⟨flash, sharedIo, outcome, _, supplied⟩ := eraseLogArea_outcome config kept.initialized kept.locked
  obtain ⟨_, blanked⟩ := supplied kept.power
  cases outcome with
  | erased answered => exact absurd (.inl answered) lost
  | stopped failed same =>
    obtain ⟨hit, member, low⟩ : ∃ hit ∈ s.found, ¬ s.eraseStop ≤ hit.addr := by
      by_contra none'
      exact lost (.inr fun hit member => Decidable.byContradiction fun low => none' ⟨hit, member, low⟩)
    have left := found_erased config (t := { s with flash, sharedIo, maintenanceBusy := true }) rfl blanked
    have count := kept.count
    rw [found_split splits above below, List.length_append] at count
    rw [found_split splits above below] at member
    have front : hit ∈ s.scanner.hits s.eraseStop s.config.startAddr := by
      rcases List.mem_append.mp member with front | back
      · exact front
      · exact absurd (Scanner.mem_hits back).1 low
    have positive := List.length_pos_of_mem front
    rw [same, left]
    change s.validFrameCount ≠ _
    omega

end Erase

section Runs
variable {s : FlashLogStorage}

/-- What a call needs for the index to describe the flash behind it. -/
def Keeps (s : FlashLogStorage) : FlashCall → Prop
  | .append record =>
    (s.append record.frame).1 = true → Apart s (s.append record.frame).2 (s.appendAddress record.size)
  | .eraseLogArea => s.Spared
  | .init _ | .cut _ _ => True

theorem Kept.restarted (config : isConfigValid s.config = true) (power : s.flash.power = none) : Kept s.restart := by
  rw [restart_rebuilds config]
  exact .rebuilt config rfl rfl power

theorem Kept.call (kept : Kept s) (call : FlashCall) (keeps : s.Keeps call) : Kept (s.call call) := by
  cases call with
  | init created =>
    have begun : s.call (.init created) = s.started.rebuildIndexFromFlash := by
      simp only [FlashLogStorage.call, init, kept.config, kept.locked, Bool.not_true, Bool.false_and, Bool.false_eq_true,
        ↓reduceIte]
      rfl
    rw [begun]
    exact .rebuilt kept.config rfl rfl kept.power
  | append record => exact kept.append record keeps
  | eraseLogArea => exact kept.eraseLogArea keeps
  | cut record budget =>
    exact .restarted kept.config kept.power

/-- The index describes the flash as it is: it counts the frames the recovery scan finds, and the
oldest and the newest can be read. -/
structure Describes (s : FlashLogStorage) : Prop where
  count : s.validFrameCount = s.found.length
  oldest : s.validFrameCount ≠ 0 → (s.readFrame s.oldestAddr LOG_FRAME_MAX_SIZE).isSome = true
  newest : s.validFrameCount ≠ 0 → (s.readFrame s.newestAddr LOG_FRAME_MAX_SIZE).isSome = true

theorem Kept.describes (kept : Kept s) : Describes s where
  count := kept.count
  oldest some' := by
    obtain ⟨hit, member, isOldest⟩ := kept.oldest some'
    rw [← isOldest]
    exact readFrame_found kept.config kept.locked member
  newest some' := by
    obtain ⟨hit, member, isNewest⟩ := kept.newest some'
    rw [← isNewest]
    exact readFrame_found kept.config kept.locked member

end Runs

end FlashLogStorage

/-- In a run of calls from a started log, where appends store their frames apart from the others and
no erase stops behind a frame, the index describes the flash behind an erase if and only if that
erase too is answered throughout or takes no frame. -/
theorem erase_describes_iff {s t : FlashLogStorage} (config : isConfigValid s.config = true) (power : s.flash.power = none)
    (reached : Machine.Reach (fun s call => some (s.call call)) Keeps (s.init true).2 t) :
    (t.Spared → Describes t.eraseLogArea.2) ∧ (t.Splits t.eraseStop → Describes t.eraseLogArea.2 → t.Spared) := by
  have kept : Kept t := by
    apply reached.invariant Kept
    · rw [init_eq config]
      exact .rebuilt config rfl rfl power
    · intro s t call kept keeps taken
      cases taken
      exact kept.call call keeps
  refine ⟨fun spared => (kept.eraseLogArea spared).describes, fun splits describes => ?_⟩
  by_contra lost
  exact kept.eraseLogArea_lost splits lost describes.count

section Stuck
variable {running s : FlashLogStorage}

/-- The log of `running` in an object to which no lock is granted. -/
private structure Stuck (running s : FlashLogStorage) : Prop where
  config : s.config = running.config
  cells : s.flash.cells = running.flash.cells
  initialized : s.initialized = true
  locked : s.mutexCreated = true
  locks : s.sharedIo = fun _ => false
  index : s.index = running.index

private theorem Stuck.rebuilt (config : isConfigValid running.config = true)
    (again : running.rebuildIndexFromFlash.index = running.index) (sameConfig : s.config = running.config)
    (sameCells : s.flash.cells = running.flash.cells) (initialized : s.initialized = true) (locked : s.mutexCreated = true)
    (locks : s.sharedIo = fun _ => false) : Stuck running s.rebuildIndexFromFlash := by
  have index := rebuild_index_congr config sameConfig sameCells
  rw [again] at index
  have keeps := rebuildIndexFromFlash_keeps s
  rw [index] at keeps
  rw [keeps]
  exact ⟨sameConfig, sameCells, initialized, locked, locks, rfl⟩

private theorem Stuck.append (stuck : Stuck running s) (config : isConfigValid running.config = true)
    (again : running.rebuildIndexFromFlash.index = running.index) (inside : 1 < running.config.sectors)
    (write : running.writeAddr = running.config.base 1) (record : Record) :
    (s.append record.frame).1 = false ∧ Stuck running (s.append record.frame).2 := by
  have start : s.writeAddr = running.writeAddr := congrArg Index.writeAddr stuck.index
  have sameConfig := stuck.config
  obtain ⟨u, refused, area, sameFlash, initialized, locked, locks⟩ := append_refused (s := s) (by rwa [sameConfig])
    (by rwa [sameConfig]) (by rw [start, write, sameConfig]) stuck.initialized stuck.locked (by rw [stuck.locks]) record
  rw [refused]
  exact ⟨rfl, .rebuilt config again (area.trans sameConfig) (by rw [sameFlash, stuck.cells]) initialized locked
    (by rw [locks, stuck.locks])⟩

private theorem Stuck.cut (stuck : Stuck running s) (config : isConfigValid running.config = true)
    (again : running.rebuildIndexFromFlash.index = running.index) (inside : 1 < running.config.sectors)
    (write : running.writeAddr = running.config.base 1) (record : Record) (budget : Nat) :
    Stuck running (s.cutAppend budget record.frame) := by
  have powered : Stuck running { s with flash := { s.flash with power := some budget } } :=
    ⟨stuck.config, stuck.cells, stuck.initialized, stuck.locked, stuck.locks, stuck.index⟩
  have cells := (powered.append config again inside write record).2.cells
  rw [cutAppend, restart_rebuilds (by change isConfigValid s.config = true; rwa [stuck.config])]
  exact .rebuilt config again stuck.config cells rfl rfl stuck.locks

end Stuck

/-- Over the fifty frames of an earlier run, with no lock granted: a start, an append that fails, one that a cut
ends, and an erase that fails at its first sector. -/
theorem erase_describes_fifty :
    ∃ running, ((blankStorage ⟨0, 8192⟩).init true).2.appendAll (sectorRecords 0) = running ∧
      let s := FlashLogStorage.new running.flash ⟨0, 8192⟩ fun _ => false
      let t := (s.init true).2.callAll [.append (sampleRecord 50 5 five_fits), .cut (sampleRecord 50 5 five_fits) 10]
      t.eraseLogArea.1 = false ∧ Describes t.eraseLogArea.2 ∧ t.eraseLogArea.2.validFrameCount = 50 := by
  obtain ⟨running, isRunning, area, working, represents, counted, write, leads, clean⟩ := fifty_frames
  have config := represents.imaged.config
  have inside : 1 < running.config.sectors := by
    rw [area]
    decide
  have again := represents.recovers (by simp [oneSector, RingLog.used, length_sectorRecords]) leads clean
  refine ⟨running, isRunning, ?_⟩
  obtain ⟨s, isS⟩ : ∃ s, FlashLogStorage.new running.flash ⟨0, 8192⟩ (fun _ => false) = s := ⟨_, rfl⟩
  obtain ⟨first, begun⟩ : ∃ first, (s.init true).2 = first := ⟨_, rfl⟩
  have area' : s.config = ⟨0, 8192⟩ := by rw [← isS]; rfl
  have stuck : Stuck running first := by
    rw [← begun, init_eq (by rw [area']; decide)]
    exact .rebuilt config again (by rw [← isS]; exact area.symm) (by rw [← isS]; rfl) rfl rfl (by rw [← isS]; rfl)
  obtain ⟨failed, still⟩ := stuck.append config again inside write (sampleRecord 50 5 five_fits)
  have last := still.cut config again inside write (sampleRecord 50 5 five_fits) 10
  have keeps : first.Keeps (.append (sampleRecord 50 5 five_fits)) := fun stored => by
    rw [failed] at stored
    cases stored
  have cut : (first.append (sampleRecord 50 5 five_fits).frame).2.Keeps (.cut (sampleRecord 50 5 five_fits) 10) := trivial
  have reached : Machine.Reach (fun s call => some (s.call call)) Keeps first
      (first.callAll [.append (sampleRecord 50 5 five_fits), .cut (sampleRecord 50 5 five_fits) 10]) :=
    .step (.step .start keeps rfl) cut rfl
  obtain ⟨t, isT⟩ : ∃ t, first.callAll [.append (sampleRecord 50 5 five_fits), .cut (sampleRecord 50 5 five_fits) 10] = t :=
    ⟨_, rfl⟩
  change Stuck running (first.callAll [.append (sampleRecord 50 5 five_fits), .cut (sampleRecord 50 5 five_fits) 10]) at last
  rw [isT] at reached last
  have validConfig : isConfigValid t.config = true := by rwa [last.config]
  have stop : t.eraseStop = t.config.startAddr := by
    rw [eraseStop, last.locks, last.config, area]
    rfl
  have spared : t.Spared := .inr fun hit member => by
    rw [stop]
    exact (hits_inside validConfig member).1
  have describes := (erase_describes_iff (s := s) (by rw [area']; decide) (by rw [← isS]; exact working.flash.power)
    (begun ▸ reached)).1 spared
  rw [isS]
  dsimp only
  rw [begun, isT]
  obtain ⟨flash, sharedIo, outcome, _⟩ := eraseLogArea_outcome validConfig last.initialized last.locked
  cases outcome with
  | erased answered =>
    have lock := (answered 0 (by rw [last.config]; omega)).1
    rw [last.locks] at lock
    cases lock
  | stopped _ same =>
    refine ⟨congrArg Prod.fst same, describes, ?_⟩
    rw [same]
    exact (congrArg Index.validFrameCount last.index).trans counted

theorem Represents.isKept {s : FlashLogStorage} {ring : RingLog} (represents : Represents s ring) (power : s.flash.power = none) :
    Kept s := by
  have config := represents.imaged.config
  have sector := Config.base_inside config represents.current
  have next := Config.base_inside config (Config.next_lt config ring.current)
  have perm := Represents.live_perm s.config ring
  have found : s.found = (Imaged.inOrder s.config fun k => .whole (ring.records k)).map hitOf := represents.imaged.hits
  have count : s.validFrameCount = s.found.length := by
    rw [found, List.length_map, represents.count]
    exact perm.length_eq
  have hit {place : Nat × Record} (member : place ∈ ring.live s.config) : hitOf place ∈ s.found := by
    rw [found]
    exact List.mem_map_of_mem (perm.mem_iff.mp member)
  have live (some' : s.validFrameCount ≠ 0) : ring.live s.config ≠ [] := by
    rintro none'
    rw [represents.count, none'] at some'
    exact some' rfl
  have write := represents.write
  refine ⟨⟨⟨count, ?_, ?_⟩, ?_, ?_⟩, config, represents.initialized, represents.locked, power⟩
  · intro some'
    have first := List.head?_eq_some_head (live some')
    exact ⟨_, hit (List.mem_of_head? first), (represents.oldest _ first).symm⟩
  · intro some'
    have last := List.getLast?_eq_some_getLast (live some')
    exact ⟨_, hit (List.mem_of_getLast? last), (represents.newest _ last).1.symm⟩
  · rw [write]
    split <;> omega
  · rw [write]
    split <;> omega

section Images
variable {s : FlashLogStorage} {sectors : Nat → Sector}

private theorem Imaged.splits_within (imaged : Imaged s sectors) {k : Nat} (inside : k < s.config.sectors) {n : Nat} (most : n ≤ 4096)
    (here : ∀ place ∈ placed (s.config.base k) (sectors k).records,
      place.1 + place.2.size ≤ s.config.base k + n ∨ s.config.base k + n ≤ place.1) : s.Splits (s.config.base k + n) := by
  intro hit member
  have found : s.found = (Imaged.inOrder s.config sectors).map hitOf := imaged.hits
  rw [found] at member
  obtain ⟨place, listed, rfl⟩ := List.mem_map.mp member
  obtain ⟨j, range, within⟩ := List.mem_flatMap.mp listed
  obtain ⟨low, high⟩ := imaged.places_bounds (List.mem_range.mp range) within
  by_cases same : j = k
  · subst same
    exact here place within
  · rcases s.config.base_apart same with before | behind
    · exact .inl (by simp only [hitOf]; omega)
    · exact .inr (by simp only [hitOf]; omega)

/-- Frames stored one behind another do not lie across the place behind any of them. -/
theorem Imaged.splits (imaged : Imaged s sectors) {k : Nat} (inside : k < s.config.sectors) {front : List Record}
    (isPrefix : front <+: (sectors k).records) : s.Splits (s.config.base k + (frameBytes front).length) := by
  obtain ⟨back, split⟩ := isPrefix
  have fits := (imaged.holds k inside).fits
  rw [Sector.bytes, ← split, frameBytes_append, List.length_append, List.length_append] at fits
  apply imaged.splits_within inside (by omega)
  intro place member
  rw [← split, placed_append] at member
  rcases List.mem_append.mp member with before | behind
  · exact .inl (placed_bounds before).2
  · exact .inr (placed_bounds behind).1

theorem Imaged.splits_end (imaged : Imaged s sectors) {k : Nat} (inside : k < s.config.sectors) :
    s.Splits (s.config.base k + 4096) :=
  imaged.splits_within inside (Nat.le_refl _) fun _ member => .inl (imaged.places_bounds inside member).2

/-- Behind the first frames of a sector the scan finds the others. -/
theorem Imaged.hits_behind (imaged : Imaged s sectors) {k : Nat} (inside : k < s.config.sectors) {front back : List Record}
    (split : (sectors k).records = front ++ back) {hit : Scanner.Hit LogFrameHeader}
    (member : hit ∈ s.scanner.hits (s.config.base k + 4096) (s.config.base k + (frameBytes front).length)) :
    ∃ place ∈ placed (s.config.base k + (frameBytes front).length) back, hitOf place = hit := by
  have config := imaged.config
  have sector := Config.base_inside config inside
  have here : s.Splits (s.config.base k + (frameBytes front).length) :=
    imaged.splits inside (by rw [split]; exact List.prefix_append _ _)
  have fits := (imaged.holds k inside).fits
  rw [Sector.bytes, split, frameBytes_append, List.length_append, List.length_append] at fits
  obtain ⟨low, high, _⟩ := Scanner.mem_hits member
  have inFound : hit ∈ s.found := by
    rw [found_split here (by omega) (by omega), here.middle (imaged.splits_end inside) (by omega) (by omega) sector.2.1]
    exact List.mem_append_right _ (List.mem_append_left _ member)
  have found : s.found = (Imaged.inOrder s.config sectors).map hitOf := imaged.hits
  rw [found] at inFound
  obtain ⟨place, listed, rfl⟩ := List.mem_map.mp inFound
  obtain ⟨j, range, within⟩ := List.mem_flatMap.mp listed
  have bounds := imaged.places_bounds (List.mem_range.mp range) within
  have positive := place.2.size_pos
  simp only [hitOf] at low high
  have same : j = k := by
    by_contra other
    rcases s.config.base_apart other with before | behind <;> omega
  subst same
  rw [split, placed_append] at within
  rcases List.mem_append.mp within with before | behind
  · have ends := (placed_bounds before).2
    omega
  · exact ⟨place, behind, rfl⟩

end Images

theorem Represents.keeps {s : FlashLogStorage} {ring : RingLog} (represents : Represents s ring) (working : s.Working)
    (record : Record) : s.Keeps (.append record) := by
  intro _
  obtain ⟨t, result, sameConfig, _, related⟩ := represents.append_refines working record
  have place := represents.appendAddress record
  have config := represents.imaged.config
  have small := record.size_lt
  have positive := record.size_pos
  rw [result]
  obtain ⟨k, inside, front, isPlace, room, before, after⟩ : ∃ k, ∃ (_ : k < s.config.sectors), ∃ front,
      s.appendAddress record.size = s.config.base k + (frameBytes front).length ∧
        (frameBytes front).length + record.size ≤ 4096 ∧ (front = ring.records k ∨ front = []) ∧
        (ring.append s.config record).records k = front ++ [record] := by
    by_cases extends' : ring.Extends record
    · refine ⟨ring.current, represents.current, ring.records ring.current, ?_, extends'.2, .inl rfl, ?_⟩
      · rw [place, if_pos extends']
        rfl
      · simp only [RingLog.append, if_pos extends', Function.update_self]
    · refine ⟨s.config.next ring.current, Config.next_lt config _, [], ?_, ?_, .inr rfl, ?_⟩
      · rw [place, if_neg extends']
        rfl
      · rw [frameBytes_nil, List.length_nil]
        omega
      · simp only [RingLog.append, if_neg extends', Function.update_self, List.nil_append]
  have sector := Config.base_inside config inside
  have ends : currentSectorEnd (s.appendAddress record.size) = s.config.base k + 4096 :=
    currentSectorEnd_inside config inside (by omega) (by omega)
  have behind : front <+: ring.records k := by
    rcases before with rfl | rfl
    · exact List.prefix_rfl
    · exact List.nil_prefix
  have here := represents.imaged.splits inside behind
  have there := related.imaged.splits (k := k) (by rwa [sameConfig]) (after ▸ List.prefix_append front [record])
  have last := related.imaged.splits_end (k := k) (by rwa [sameConfig])
  have only {hit : Scanner.Hit LogFrameHeader}
      (member : hit ∈ t.scanner.hits (t.config.base k + 4096) (t.config.base k + (frameBytes front).length)) :=
    related.imaged.hits_behind (by rwa [sameConfig]) after member
  rw [sameConfig] at there last only
  rw [isPlace] at ends
  rw [isPlace]
  constructor
  · rw [ends]
    exact ⟨here, represents.imaged.splits_end inside⟩
  · rw [ends]
    exact ⟨there, last⟩
  · intro begun
    have whole : front = ring.records k := by
      refine before.resolve_right fun none' => ?_
      rw [none', frameBytes_nil, List.length_nil, isSectorStart, decide_eq_false_iff_not] at begun
      exact begun sector.2.2
    rw [ends, List.eq_nil_iff_forall_not_mem]
    intro hit member
    have split : ring.records k = front ++ [] := by rw [whole, List.append_nil]
    obtain ⟨_, none', _⟩ := represents.imaged.hits_behind inside split member
    cases none'
  · intro hit member
    rw [ends] at member
    obtain ⟨place, one, rfl⟩ := only member
    rw [List.mem_singleton.mp one]
    rfl

theorem FlashLogStorage.Kept.facing {s : FlashLogStorage} (kept : Kept s) (sharedIo polls : Nat → Bool) : Kept (s.facing sharedIo polls) :=
  ⟨⟨⟨kept.count, kept.oldest, kept.newest⟩, kept.above, kept.below⟩, kept.config, kept.initialized, kept.locked, kept.power⟩

private theorem lost_first_sector {s : FlashLogStorage} (kept : Kept s) (area : s.config = ⟨0, 8192⟩) (splits : s.Splits 4096)
    {hit : Scanner.Hit LogFrameHeader} (member : hit ∈ s.found) (low : hit.addr < 4096) :
    let result := (s.facing (fun n => n = 0) fun _ => true).eraseLogArea
    result.1 = false ∧ result.2.validFrameCount ≠ result.2.found.length := by
  intro result
  have facing := kept.facing (fun n => n = 0) fun _ => true
  have stop : (s.facing (fun n => n = 0) fun _ => true).eraseStop = 4096 := by
    simp only [eraseStop, FlashLogStorage.facing, area]
    decide
  have unanswered : ¬ Answered (fun n => decide (n = 0)) (fun _ => true) s.config.sectors := by
    rw [area]
    exact fun answered => Bool.noConfusion (answered 1 (by decide)).1
  have lost : ¬ (s.facing (fun n => n = 0) fun _ => true).Spared := by
    rintro (answered | beyond)
    · exact unanswered answered
    · have above := beyond hit member
      rw [stop] at above
      omega
  refine ⟨?_, facing.eraseLogArea_lost (by rw [stop]; exact splits) lost⟩
  obtain ⟨flash, sharedIo, outcome, _⟩ := eraseLogArea_outcome facing.config facing.initialized facing.locked
  cases outcome with
  | erased answered => exact absurd answered unanswered
  | stopped _ same => exact congrArg Prod.fst same

/-- One frame, and an erase whose second lock times out: the frame is gone and still counted. -/
theorem erase_counts_lost :
    let record := sampleRecord 0 5 (by decide)
    let running := (((blankStorage ⟨0, 8192⟩).init true).2.append record.frame).2
    let result := (running.facing (fun n => n = 0) fun _ => true).eraseLogArea
    running.validFrameCount = running.found.length ∧ result.1 = false ∧
      result.2.validFrameCount ≠ result.2.found.length := by
  intro record running
  have config : isConfigValid ⟨0, 8192⟩ = true := by decide
  obtain ⟨t, started, sameConfig, works, represents, _, _⟩ := init_erased (s := blankStorage ⟨0, 8192⟩) config
    (blankStorage_working _) (blankStorage_erased _)
  obtain ⟨u, result, sameAfter, worksAfter, related⟩ := represents.append_refines works record
  have run : running = u := by
    simp only [running, started]
    rw [result]
  rw [blankStorage_config] at sameConfig related
  have area : u.config = ⟨0, 8192⟩ := sameAfter.trans sameConfig
  have kept := related.isKept worksAfter.flash.power
  have splits := related.imaged.splits_end (k := 0) (by rw [area]; decide)
  rw [area] at splits
  have stored : (0, record) ∈ Imaged.inOrder u.config fun k =>
      .whole ((RingLog.append t.config (.fresh ⟨0, 8192⟩) record).records k) := by
    rw [area, sameConfig]
    refine List.mem_flatMap.mpr ⟨0, List.mem_range.mpr (by decide), ?_⟩
    simp [RingLog.append, RingLog.Extends, RingLog.used, RingLog.fresh, Sector.whole, placed, Config.base, Config.next,
      Config.sectors]
  have member : hitOf (0, record) ∈ u.found := by
    rw [show u.found = _ from related.imaged.hits]
    exact List.mem_map_of_mem stored
  rw [run]
  exact ⟨kept.count, lost_first_sector kept area splits member (by decide)⟩

end PicoWLogger
