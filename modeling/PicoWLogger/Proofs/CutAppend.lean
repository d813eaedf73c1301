import PicoWLogger.PowerCut
import PicoWLogger.Proofs.RingRefinement

/-! One append that the supply may cut short. It has a place behind whole frames or at
the start of a sector, and leaves a beginning of its frame there. -/

namespace PicoWLogger
open FlashLogStorage

/-- The write address is a sector start, or right behind whole frames. -/
inductive WritePosition (s : FlashLogStorage) (sectors : Nat → Sector) : Prop where
  | boundary (k : Nat) (inside : k < s.config.sectors) (write : s.writeAddr = s.config.base k)
  | middle (k : Nat) (inside : k < s.config.sectors) (clean : (sectors k).torn = [])
      (some' : 0 < (frameBytes (sectors k).records).length) (part : (frameBytes (sectors k).records).length < 4096)
      (write : s.writeAddr = s.config.base k + (frameBytes (sectors k).records).length)

/-- The frames of sector `k` behind which an append of `record` puts its frame; none when
it begins the sector. -/
structure Target (s : FlashLogStorage) (sectors : Nat → Sector) (record : Record) (k : Nat) (front : List Record) :
    Prop where
  inside : k < s.config.sectors
  place : s.appendAddress record.size = s.config.base k + (frameBytes front).length
  room : (frameBytes front).length + record.size ≤ 4096
  begins : isSectorStart (s.appendAddress record.size) = true ↔ front = []
  behind : front ≠ [] → (sectors k).records = front ∧ (sectors k).torn = []

section Storage
variable {s : FlashLogStorage} {sectors : Nat → Sector}

private theorem Target.start {k : Nat} (config : isConfigValid s.config = true) (record : Record)
    (inside : k < s.config.sectors) (place : s.appendAddress record.size = s.config.base k) :
    Target s sectors record k [] where
  inside := inside
  place := by rw [place]; rfl
  room := by
    have small := record.size_lt
    simp only [frameBytes_nil, List.length_nil]
    omega
  begins := by
    have sector := Config.base_inside config inside
    rw [place]
    simp [isSectorStart, SECTOR_SIZE, sector.2.2]
  behind := fun some' => absurd rfl some'

theorem WritePosition.target (position : WritePosition s sectors) (config : isConfigValid s.config = true)
    (record : Record) : ∃ k front, Target s sectors record k front := by
  have small := record.size_lt
  have positive := record.size_pos
  cases position with
  | boundary k inside write =>
    have sector := Config.base_inside config inside
    refine ⟨k, [], .start config record inside ?_⟩
    rw [appendAddress_fits config inside (by omega) (by omega) (by omega), write]
  | middle k inside clean some' part write =>
    have sector := Config.base_inside config inside
    by_cases room : (frameBytes (sectors k).records).length + record.size ≤ 4096
    · have place : s.appendAddress record.size = s.config.base k + (frameBytes (sectors k).records).length := by
        rw [appendAddress_fits config inside (by omega) (by omega) (by omega), write]
      refine ⟨k, (sectors k).records, inside, place, room, ?_, fun _ => ⟨rfl, clean⟩⟩
      rw [place, isSectorStart, decide_eq_true_eq]
      constructor
      · intro start
        simp only [SECTOR_SIZE] at start
        omega
      · intro none'
        rw [none', frameBytes_nil, List.length_nil] at some'
        omega
    · exact ⟨s.config.next k, [], .start config record (Config.next_lt config k)
        (appendAddress_next config inside (by omega) (by omega) (by omega) (by omega))⟩

/-- Behind a frame stored whole the write address is fit for the next append. -/
theorem Target.position {record : Record} {k : Nat} {front : List Record} (target : Target s sectors record k front)
    (config : isConfigValid s.config = true) {t : FlashLogStorage} (sameConfig : t.config = s.config) {sector : Sector}
    (whole : sector = .whole (front ++ [record]))
    (write : t.writeAddr = s.wrapAddress (s.appendAddress record.size + record.size)) :
    WritePosition t (Function.update sectors k sector) := by
  have bounds := Config.base_inside config target.inside
  have positive := record.size_pos
  have room := target.room
  have length : (frameBytes (Function.update sectors k sector k).records).length =
      (frameBytes front).length + record.size := by
    rw [Function.update_self, whole]
    simp [Sector.whole, frameBytes_append]
  rw [target.place] at write
  by_cases full : (frameBytes front).length + record.size = 4096
  · refine .boundary (s.config.next k) (by rw [sameConfig]; exact Config.next_lt config k) ?_
    rw [write, sameConfig, Nat.add_assoc, full]
    exact wrapAddress_next config target.inside
  · refine .middle k (by rw [sameConfig]; exact target.inside) ?_ (by omega) (by omega) ?_
    · rw [Function.update_self, whole]
      rfl
    · rw [write, length, sameConfig, wrapAddress, if_neg (by omega), Nat.add_assoc]

theorem append_unpowered (responsive : s.Responsive) (config : isConfigValid s.config = true)
    (initialized : s.initialized = true) (locked : s.mutexCreated = true) {record : Record} {k : Nat}
    {front : List Record} (target : Target s sectors record k front)
    (cut : isSectorStart (s.appendAddress record.size) = true ∧ s.flash.power = some 0) :
    (s.append record.frame).2.flash.cells = s.flash.cells := by
  have sector := Config.base_inside config target.inside
  have room := target.room
  have place := target.place
  have length := record.length_frame
  have small := record.size_lt
  have cells := append_cells responsive config initialized locked record.frame
    (by rw [length]; exact record.size_pos) (by omega) (by rw [length]) (by omega)
  rw [cells, begun, if_pos cut.1]
  funext a
  simp [FlashDriver.programCells, FlashDriver.eraseCells, FlashDriver.reaching, cut.2, and_erased]

/-- Otherwise a beginning of the frame is programmed behind the frames before it. -/
theorem append_programs (responsive : s.Responsive) (config : isConfigValid s.config = true)
    (initialized : s.initialized = true) (locked : s.mutexCreated = true)
    (holding : Holding s.flash s.config fun j => (sectors j).bytes) {record : Record} {k : Nat}
    {front : List Record} (target : Target s sectors record k front)
    (powered : ¬ (isSectorStart (s.appendAddress record.size) = true ∧ s.flash.power = some 0)) :
    ∃ part, part <+: record.frame ∧ (s.flash.power = none → part = record.frame) ∧
      (∀ left, s.flash.power = some left → part.length ≤ left) ∧
      Holding (s.append record.frame).2.flash s.config
        (Function.update (fun j => (sectors j).bytes) k (frameBytes front ++ part)) := by
  have sector := Config.base_inside config target.inside
  have room := target.room
  have place := target.place
  have length := record.length_frame
  have small := record.size_lt
  have cells := append_cells responsive config initialized locked record.frame
    (by rw [length]; exact record.size_pos) (by omega) (by rw [length]) (by omega)
  have prefix' (flash : FlashDriver) : flash.reaching record.frame <+: record.frame := by
    rw [FlashDriver.reaching]
    split
    · exact List.prefix_refl _
    · exact List.take_prefix _ _
  refine ⟨(s.begun (s.appendAddress record.size)).flash.reaching record.frame, prefix' _, ?_, ?_, ?_⟩
  · intro steady
    simp only [FlashDriver.reaching, begun_power steady]
  · intro left limited
    have reach : ∃ rest, (s.begun (s.appendAddress record.size)).flash.power = some rest ∧ rest ≤ left := by
      rw [begun]
      split
      · exact ⟨left - 1, by simp [FlashDriver.eraseCells, limited], Nat.sub_le _ _⟩
      · exact ⟨left, limited, Nat.le_refl _⟩
    obtain ⟨rest, power, less⟩ := reach
    simp only [FlashDriver.reaching, power]
    exact (List.length_take_le _ _).trans less
  · suffices programmed : Holding ((s.begun (s.appendAddress record.size)).flash.programCells
        (s.appendAddress record.size) record.frame) s.config (Function.update (fun j => (sectors j).bytes) k
          (frameBytes front ++ (s.begun (s.appendAddress record.size)).flash.reaching record.frame)) from
      fun j inside => (programmed j inside).congr fun a _ _ => by rw [cells]
    by_cases begins : isSectorStart (s.appendAddress record.size) = true
    · have none' := target.begins.mp begins
      subst none'
      rw [frameBytes_nil, List.length_nil, Nat.add_zero] at place
      have erased := holding.erase (fun cut => powered ⟨begins, cut⟩) k
      have programmed := erased.program target.inside record.frame (by
        rw [Function.update_self, List.length_nil, length]
        omega)
      rw [Function.update_self, Function.update_idem, List.nil_append, List.length_nil, Nat.add_zero, ← place] at programmed
      rw [begun, if_pos begins]
      exact programmed
    · have some' : front ≠ [] := fun none' => begins (target.begins.mpr none')
      obtain ⟨records, clean⟩ := target.behind some'
      have bytes : (sectors k).bytes = frameBytes front := by rw [Sector.bytes, records, clean, List.append_nil]
      have programmed := holding.program target.inside record.frame (by rw [bytes, length]; exact room)
      rw [bytes, ← place] at programmed
      rw [begun, if_neg begins]
      exact programmed

end Storage

/-- The sector after a beginning of the frame was programmed: whole if the cells say so. -/
def settled (flash : FlashDriver) (base : Nat) (front : List Record) (record : Record) (part : List UInt8) : Sector :=
  if flash.cellsFrom (base + (frameBytes front).length) record.size = record.frame then .whole (front ++ [record])
  else { records := front, torn := part }

theorem settled_holds {flash : FlashDriver} {base : Nat} {front : List Record} {record : Record} {part : List UInt8}
    (holds : Holds flash base (frameBytes front ++ part)) (room : (frameBytes front).length + record.size ≤ 4096)
    (isPrefix : part <+: record.frame) : Holds flash base (settled flash base front record part).bytes := by
  rw [settled]
  split
  next whole =>
    rw [Sector.bytes_whole, frameBytes_append, frameBytes_cons, frameBytes_nil, List.append_nil]
    have shorter := isPrefix.length_le
    rw [record.length_frame] at shorter
    refine ⟨by rw [List.length_append, record.length_frame]; exact room, ?_⟩
    intro offset small
    by_cases before : offset < (frameBytes front).length
    · rw [holds.cells offset small, List.getD_append _ _ _ _ before, List.getD_append _ _ _ _ before]
    · rw [List.getD_append_right _ _ _ _ (not_lt.mp before)]
      by_cases within : offset - (frameBytes front).length < record.size
      · rw [← whole, List.getD_eq_getElem _ _ (by simpa using within), FlashDriver.getElem_cellsFrom]
        congr 1
        omega
      · rw [holds.erased (by rw [List.length_append]; omega) (by omega),
          List.getD_eq_default _ _ (by rw [record.length_frame]; omega)]
  next => exact holds

theorem settled_torn {flash : FlashDriver} {base : Nat} {front : List Record} {record : Record} {part : List UInt8}
    (isPrefix : part <+: record.frame) : ∀ byte ∈ (settled flash base front record part).torn.head?, byte = 0xA5 := by
  rw [settled]
  split
  · simp [Sector.whole]
  · intro byte first
    cases part with
    | nil => cases first
    | cons head tail =>
      cases first
      obtain ⟨rest, same⟩ := isPrefix
      have start := record.frame_head
      rw [← same] at start
      exact Option.some.inj start

end PicoWLogger
