import PicoWLogger.RingLog
import PicoWLogger.Proofs.FlashEffects

/-! The log area as a row of sectors. Each holds whole frames from its start, possibly
the torn beginning of one more, and erased cells after that. Every scan of the area
then finds the whole frames in the order of their addresses. -/

namespace PicoWLogger

@[simp] theorem frameBytes_nil : frameBytes [] = [] := rfl

@[simp] theorem frameBytes_cons (record : Record) (rest : List Record) :
    frameBytes (record :: rest) = record.frame ++ frameBytes rest := List.flatMap_cons

theorem frameBytes_append (front back : List Record) :
    frameBytes (front ++ back) = frameBytes front ++ frameBytes back := List.flatMap_append

theorem length_frameBytes (records : List Record) : (frameBytes records).length = (records.map Record.size).sum := by
  induction records with
  | nil => rfl
  | cons record rest ih => simp [ih]

@[simp] theorem length_placed (addr : Nat) (records : List Record) : (placed addr records).length = records.length := by
  induction records generalizing addr with
  | nil => rfl
  | cons record rest ih => simp [placed, ih]

theorem placed_append (addr : Nat) (front back : List Record) :
    placed addr (front ++ back) = placed addr front ++ placed (addr + (frameBytes front).length) back := by
  induction front generalizing addr with
  | nil => rfl
  | cons record rest ih =>
    simp only [List.cons_append, placed, ih, frameBytes_cons, List.length_append, Record.length_frame, Nat.add_assoc]

theorem map_snd_placed (addr : Nat) (records : List Record) : (placed addr records).map Prod.snd = records := by
  induction records generalizing addr with
  | nil => rfl
  | cons record rest ih => simp [placed, ih]

theorem map_frame_placed (addr : Nat) (records : List Record) :
    (placed addr records).map (fun place => place.2.frame) = records.map Record.frame := by
  have pairs := congrArg (List.map Record.frame) (map_snd_placed addr records)
  rwa [List.map_map] at pairs

theorem exists_place (addr : Nat) {records : List Record} {record : Record} (member : record ∈ records) :
    ∃ place ∈ placed addr records, place.2 = record := by
  rw [← map_snd_placed addr records] at member
  exact List.mem_map.mp member

/-- Every placed frame splits the bytes into those before, its own and those after. -/
theorem placed_split {addr : Nat} {records : List Record} {place : Nat × Record} (member : place ∈ placed addr records) :
    ∃ front back, records = front ++ place.2 :: back ∧ place.1 = addr + (frameBytes front).length := by
  induction records generalizing addr with
  | nil => cases member
  | cons record rest ih =>
    rcases List.mem_cons.mp member with rfl | member
    · exact ⟨[], rest, rfl, rfl⟩
    · obtain ⟨front, back, same, place⟩ := ih member
      refine ⟨record :: front, back, by rw [same, List.cons_append], ?_⟩
      simp only [place, frameBytes_cons, List.length_append, Record.length_frame, Nat.add_assoc]

theorem placed_bounds {addr : Nat} {records : List Record} {place : Nat × Record} (member : place ∈ placed addr records) :
    addr ≤ place.1 ∧ place.1 + place.2.size ≤ addr + (frameBytes records).length := by
  obtain ⟨front, back, rfl, at'⟩ := placed_split member
  simp only [frameBytes_append, frameBytes_cons, List.length_append, Record.length_frame]
  omega

theorem placed_disjoint (addr : Nat) (records : List Record) :
    (placed addr records).Pairwise fun left right => left.1 + left.2.size ≤ right.1 := by
  induction records generalizing addr with
  | nil => exact List.Pairwise.nil
  | cons record rest ih => exact List.pairwise_cons.mpr ⟨fun place member => (placed_bounds member).1, ih _⟩

/-- The sector at `base` holds `bytes` from its start and is erased beyond them. -/
structure Holds (flash : FlashDriver) (base : Nat) (bytes : List UInt8) : Prop where
  fits : bytes.length ≤ 4096
  cells : ∀ offset < 4096, flash.cells (base + offset) = bytes.getD offset 0xFF

namespace Holds
variable {flash other : FlashDriver} {base : Nat} {bytes : List UInt8}

theorem erased (holds : Holds flash base bytes) {addr : Nat} (above : base + bytes.length ≤ addr)
    (below : addr < base + 4096) : flash.cells addr = 0xFF := by
  have cell := holds.cells (addr - base) (by omega)
  rw [Nat.add_sub_cancel' (by omega)] at cell
  rw [cell, List.getD_eq_default _ _ (by omega)]

theorem cellsFrom {front middle back : List UInt8} (holds : Holds flash base (front ++ middle ++ back)) :
    flash.cellsFrom (base + front.length) middle.length = middle := by
  have fits := holds.fits
  simp only [List.length_append] at fits
  apply List.ext_getElem
  · simp
  · intro i first last
    rw [FlashDriver.getElem_cellsFrom, Nat.add_assoc, holds.cells _ (by omega), List.append_assoc,
      List.getD_append_right _ _ _ _ (by omega), Nat.add_sub_cancel_left, List.getD_append _ _ _ _ last,
      List.getD_eq_getElem _ _ last]

theorem congr (holds : Holds flash base bytes)
    (same : ∀ a, base ≤ a → a < base + 4096 → other.cells a = flash.cells a) : Holds other base bytes where
  fits := holds.fits
  cells offset inside := by rw [same _ (by omega) (by omega), holds.cells offset inside]

/-- Programming right behind the held bytes appends what reaches the cells. -/
theorem program (holds : Holds flash base bytes) {data : List UInt8} (room : bytes.length + data.length ≤ 4096) :
    Holds (flash.programCells (base + bytes.length) data) base (bytes ++ flash.reaching data) where
  fits := by
    have shorter : (flash.reaching data).length ≤ data.length := FlashDriver.length_reaching_le flash data
    rw [List.length_append]
    omega
  cells offset inside := by
    simp only [FlashDriver.programCells]
    by_cases behind : bytes.length ≤ offset
    · rw [if_pos (by omega), holds.erased (by omega) (by omega), List.getD_append_right _ _ _ _ behind,
        UInt8.and_comm, and_erased]
      congr 1
      omega
    · rw [if_neg (by omega), holds.cells offset inside, List.getD_append _ _ _ _ (by omega)]

end Holds

namespace Config

theorem shape {config : Config} (valid : FlashLogStorage.isConfigValid config = true) :
    config.startAddr % 4096 = 0 ∧ config.endAddr = config.startAddr + 4096 * config.sectors ∧
      0 < config.sectors ∧ config.endAddr ≤ 4194304 := by
  obtain ⟨ordered, first, flashEnd, last⟩ := (FlashLogStorage.isConfigValid_iff _).mp valid
  simp only [SECTOR_SIZE, FLASH_SIZE] at first last flashEnd
  simp only [sectors]
  omega

end Config

/-- Every sector of the area holds the bytes listed for it. -/
def Holding (flash : FlashDriver) (config : Config) (contents : Nat → List UInt8) : Prop :=
  ∀ k < config.sectors, Holds flash (config.base k) (contents k)

/-- Whole frames and the torn remains of an interrupted one. -/
structure Sector where
  records : List Record
  torn : List UInt8

namespace Sector

def bytes (sector : Sector) : List UInt8 := frameBytes sector.records ++ sector.torn

def erased : Sector where
  records := []
  torn := []

def whole (records : List Record) : Sector where
  records := records
  torn := []

@[simp] theorem bytes_whole (records : List Record) : (whole records).bytes = frameBytes records := List.append_nil _

end Sector

def hitOf (place : Nat × Record) : Scanner.Hit LogFrameHeader := ⟨place.1, place.2.header, place.2.size⟩

/-- The area holds these sectors, and nothing in torn remains passes the frame check. -/
structure Imaged (s : FlashLogStorage) (sectors : Nat → Sector) : Prop where
  config : FlashLogStorage.isConfigValid s.config = true
  holds : ∀ k < s.config.sectors, Holds s.flash (s.config.base k) (sectors k).bytes
  quiet : ∀ k < s.config.sectors, ∀ addr, s.config.base k + (frameBytes (sectors k).records).length ≤ addr →
    addr < s.config.base k + (sectors k).bytes.length → s.isValidFrameAt addr = none

/-- The frames of a sector that an erase takes are counted by a scan of it. -/
theorem FlashLogStorage.countSector_eq {s : FlashLogStorage} (config : isConfigValid s.config = true) {k : Nat}
    (inside : k < s.config.sectors) :
    s.countSector (s.config.base k) = (s.scanner.hits (s.config.base k + 4096) (s.config.base k)).length := by
  obtain ⟨_, areaEnd, _, flashEnd⟩ := Config.shape config
  have stop : min (u32 (s.config.base k + SECTOR_SIZE)) s.config.endAddr = s.config.base k + 4096 := by
    simp only [u32, SECTOR_SIZE, Config.base]
    omega
  have counted (list : List (Scanner.Hit LogFrameHeader)) (n : Nat) :
      list.foldl (fun removed _ => removed + 1) n = n + list.length := by
    induction list generalizing n with
    | nil => rfl
    | cons head tail ih =>
      rw [List.foldl_cons, ih, List.length_cons]
      omega
  rw [countSector, stop, Scanner.fold_eq_foldl, counted, Nat.zero_add]

namespace Imaged
open FlashLogStorage
variable {s : FlashLogStorage} {sectors : Nat → Sector}

theorem of_whole {records : Nat → List Record} (config : isConfigValid s.config = true)
    (holding : Holding s.flash s.config fun k => frameBytes (records k)) : Imaged s fun k => .whole (records k) where
  config := config
  holds k inside := by
    rw [Sector.bytes_whole]
    exact holding k inside
  quiet k inside addr above below := by
    rw [Sector.bytes_whole] at below
    exact absurd below (not_lt.mpr above)

theorem blank (imaged : Imaged s sectors) {k : Nat} (inside : k < s.config.sectors) {addr : Nat}
    (above : s.config.base k + (frameBytes (sectors k).records).length ≤ addr)
    (below : addr < s.config.base k + 4096) : s.isValidFrameAt addr = none := by
  by_cases remains : addr < s.config.base k + (sectors k).bytes.length
  · exact imaged.quiet k inside addr above remains
  · apply isValidFrameAt_of_head imaged.config
    rw [(imaged.holds k inside).erased (by omega) below]
    decide

theorem valid (imaged : Imaged s sectors) {k : Nat} (inside : k < s.config.sectors) {place : Nat × Record}
    (member : place ∈ placed (s.config.base k) (sectors k).records) :
    s.isValidFrameAt place.1 = some (place.2.header, place.2.size) ∧
      s.flash.cellsFrom place.1 place.2.size = place.2.frame := by
  obtain ⟨front, back, split, at'⟩ := placed_split member
  obtain ⟨_, areaEnd, _, _⟩ := Config.shape imaged.config
  have held := imaged.holds k inside
  have fits := held.fits
  have bytes : (sectors k).bytes = frameBytes front ++ place.2.frame ++ (frameBytes back ++ (sectors k).torn) := by
    simp only [Sector.bytes, split, frameBytes_append, frameBytes_cons, List.append_assoc]
  rw [bytes] at held fits
  have cells : s.flash.cellsFrom place.1 place.2.size = place.2.frame := by
    rw [at', ← Record.length_frame]
    exact held.cellsFrom
  simp only [List.length_append, Record.length_frame, Config.base] at fits at'
  refine ⟨(isValidFrameAt_iff imaged.config _ _ _).mpr ⟨by omega, by omega, place.2, rfl, rfl, cells⟩, cells⟩

theorem head (imaged : Imaged s sectors) {k : Nat} (inside : k < s.config.sectors)
    (some' : (sectors k).records ≠ []) : s.flash.cells (s.config.base k) = 0xA5 := by
  obtain ⟨record, rest, held⟩ := List.exists_cons_of_ne_nil some'
  have member : (s.config.base k, record) ∈ placed (s.config.base k) (sectors k).records := by
    rw [held]
    exact List.mem_cons_self
  have first := congrArg (fun bytes => bytes[0]?) (imaged.valid inside member).2
  simp only [record.frame_head] at first
  rw [List.getElem?_eq_getElem (by simpa using record.size_pos), FlashDriver.getElem_cellsFrom] at first
  exact Option.some.inj first

theorem places_bounds (imaged : Imaged s sectors) {k : Nat} (inside : k < s.config.sectors) {place : Nat × Record}
    (member : place ∈ placed (s.config.base k) (sectors k).records) :
    s.config.base k ≤ place.1 ∧ place.1 + place.2.size ≤ s.config.base k + 4096 := by
  have bounds := placed_bounds member
  have fits := (imaged.holds k inside).fits
  rw [Sector.bytes, List.length_append] at fits
  omega

private theorem walk_placed (addr : Nat) (records : List Record)
    (valid : ∀ place ∈ placed addr records, s.isValidFrameAt place.1 = some (place.2.header, place.2.size)) :
    s.scanner.Walk addr ((placed addr records).map hitOf) (addr + (frameBytes records).length) := by
  induction records generalizing addr with
  | nil => exact .stop _
  | cons record rest ih =>
    have first := valid (addr, record) (by simp [placed])
    have later := ih (addr + record.size) fun place member => valid place (by simp [placed, member])
    rw [frameBytes_cons, List.length_append, Record.length_frame, ← Nat.add_assoc]
    exact .hit first later

/-- A scan of one sector finds its whole frames and arrives at the sector's end. -/
theorem walk (imaged : Imaged s sectors) {k : Nat} (inside : k < s.config.sectors) :
    s.scanner.Walk (s.config.base k) ((placed (s.config.base k) (sectors k).records).map hitOf)
      (s.config.base k + 4096) := by
  have fits := (imaged.holds k inside).fits
  simp only [Sector.bytes, List.length_append] at fits
  have frames := walk_placed _ _ fun place member => (imaged.valid inside member).1
  have rest : s.scanner.Walk (s.config.base k + (frameBytes (sectors k).records).length) [] (s.config.base k + 4096) :=
    .blank (by omega) fun addr above below => imaged.blank inside above below
  simpa using frames.trans rest

def inOrder (config : Config) (sectors : Nat → Sector) : List (Nat × Record) :=
  (List.range config.sectors).flatMap fun k => placed (config.base k) (sectors k).records

/-- The frames of the area do not overlap. -/
theorem inOrder_disjoint (imaged : Imaged s sectors) :
    (inOrder s.config sectors).Pairwise fun left right => left.1 + left.2.size ≤ right.1 := by
  rw [inOrder, List.pairwise_flatMap]
  refine ⟨fun k _ => placed_disjoint _ _, ?_⟩
  apply List.pairwise_lt_range.imp_of_mem
  intro j k left right less first firstMember second secondMember
  have low := imaged.places_bounds (List.mem_range.mp left) firstMember
  have high := imaged.places_bounds (List.mem_range.mp right) secondMember
  simp only [Config.base] at low high
  omega

private theorem walk_sectors (imaged : Imaged s sectors) {n : Nat} (most : n ≤ s.config.sectors) :
    s.scanner.Walk s.config.startAddr
      (((List.range n).flatMap fun k => placed (s.config.base k) (sectors k).records).map hitOf) (s.config.base n) := by
  induction n with
  | zero => exact .stop _
  | succ n ih =>
    have front := ih (by omega)
    have back := imaged.walk (k := n) (by omega)
    have next : s.config.base (n + 1) = s.config.base n + 4096 := by
      simp only [Config.base]
      omega
    rw [List.range_succ, List.flatMap_append, List.map_append, List.flatMap_singleton, next]
    exact front.trans back

theorem hits (imaged : Imaged s sectors) :
    s.scanner.hits s.config.endAddr s.config.startAddr = (inOrder s.config sectors).map hitOf := by
  have whole := imaged.walk_sectors (Nat.le_refl _)
  have last : s.config.base s.config.sectors = s.config.endAddr := (Config.shape imaged.config).2.1.symm
  rw [last] at whole
  exact whole.hits_eq

theorem countSector (imaged : Imaged s sectors) {k : Nat} (inside : k < s.config.sectors) :
    s.countSector (s.config.base k) = (sectors k).records.length := by
  rw [countSector_eq imaged.config inside, (imaged.walk inside).hits_eq]
  simp

theorem congr (imaged : Imaged s sectors) {t : FlashLogStorage} (sameConfig : t.config = s.config)
    (same : ∀ a, s.config.startAddr ≤ a → a < s.config.endAddr → t.flash.cells a = s.flash.cells a) :
    Imaged t sectors where
  config := by rw [sameConfig, imaged.config]
  holds k inside := by
    obtain ⟨_, areaEnd, _, _⟩ := Config.shape imaged.config
    rw [sameConfig] at inside ⊢
    apply (imaged.holds k inside).congr
    intro a low high
    simp only [Config.base] at low high
    exact same a (by omega) (by omega)
  quiet k inside addr above below := by
    rw [sameConfig] at inside above below
    rw [isValidFrameAt_congr imaged.config sameConfig same]
    exact imaged.quiet k inside addr above below

end Imaged

end PicoWLogger
