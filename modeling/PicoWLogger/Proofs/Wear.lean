import Mathlib.Data.Int.CardIntervalMod
import PicoWLogger.Proofs.AppendPlace
import PicoWLogger.Proofs.BootNumbering

/-! What the log asks of the chip. Sectors are erased one after the other round the area, each only
when frames have filled the one before, and no page program meets a cell that was programmed since its erase. -/

namespace PicoWLogger
open FlashLogStorage FlashDriver

/-- Each program of a request list goes to cells that are erased when its turn comes. -/
def ProgramsErased : FlashDriver → List FlashRequest → Prop
  | _, [] => True
  | flash, .sectorErase addr :: rest => ProgramsErased (flash.eraseCells addr) rest
  | flash, .pageProgram addr data :: rest =>
    (∀ a, addr ≤ a → a < addr + data.length → flash.cells a = 0xFF) ∧ ProgramsErased (flash.programCells addr data) rest

theorem PagePartition.programsErased {addr : Nat} {data : List UInt8} {partition issued : List FlashRequest}
    (cuts : PagePartition addr data partition) (isPrefix : issued <+: partition) {flash : FlashDriver}
    (erased : ∀ a, addr ≤ a → a < addr + data.length → flash.cells a = 0xFF) : ProgramsErased flash issued := by
  induction cuts generalizing issued flash with
  | nil addr =>
    rw [List.prefix_nil.mp isPrefix]
    trivial
  | @cons addr chunk rest requests nonempty page later ih =>
    rw [List.length_append] at erased
    cases issued with
    | nil => trivial
    | cons head tail =>
      obtain ⟨rfl, behind⟩ := List.cons_prefix_cons.mp isPrefix
      refine ⟨fun a above below => erased a above (by omega), ih behind fun a above below => ?_⟩
      rw [programCells_outside (.inr above)]
      exact erased a (by omega) (by omega)

theorem PagePartition.no_erase {addr : Nat} {data : List UInt8} {partition : List FlashRequest}
    (cuts : PagePartition addr data partition) : ∀ request ∈ partition, ∀ sector, request ≠ .sectorErase sector := by
  induction cuts with
  | nil addr => nofun
  | cons nonempty page later ih =>
    intro request member sector
    rcases List.mem_cons.mp member with rfl | behind
    · exact FlashRequest.noConfusion
    · exact ih request behind sector

namespace FlashLogStorage
variable {s : FlashLogStorage}

/-- The erase that an append to `addr` asks for. -/
def eraseAt (flash : FlashDriver) (addr : Nat) : List FlashRequest :=
  if isSectorStart addr = true ∧ flash.power ≠ some 0 then [.sectorErase addr] else []

private theorem beginSector_issues (responsive : s.Responsive) (addr : Nat) (inside : addr < FLASH_SIZE) :
    ∃ t, s.beginSector addr = (true, t) ∧ t.flash.requests = s.flash.requests ++ eraseAt s.flash addr ∧
      (s.flash.power = some 0 → t.flash.power = some 0) := by
  by_cases aligned : isSectorStart addr = true
  · have invalidated : (s.invalidateFramesInErasedSector addr).Responsive := by
      rw [invalidate_keeps]
      exact ⟨responsive.flash, responsive.sharedIo⟩
    have sameFlash : (s.invalidateFramesInErasedSector addr).flash = s.flash := by
      rw [invalidate_keeps]
      rfl
    have start : addr % 4096 = 0 := by simpa [isSectorStart] using aligned
    obtain ⟨requests, erase⟩ := sectorErase_responsive responsive.flash start inside
    have received := sectorErase_requests s.flash addr
    rw [receive_requests, erase] at received
    have asked : eraseAt s.flash addr = if s.flash.power = some 0 then [] else [.sectorErase addr] := by
      simp only [eraseAt, aligned, true_and, ne_eq, ite_not]
    refine ⟨{ s.invalidateFramesInErasedSector addr with flash := { s.flash.eraseCells addr with requests } }, ?_, ?_, ?_⟩
    · simp only [beginSector, aligned, invalidated.lockSharedIo, sameFlash, erase, Bool.not_true, Bool.false_eq_true,
        ↓reduceIte]
    · rw [asked]
      exact received
    · intro off
      simp [eraseCells, off]
  · refine ⟨s, ?_, ?_, id⟩
    · simp only [beginSector, aligned, Bool.not_false, ↓reduceIte]
    · rw [eraseAt, if_neg fun both => aligned both.1, List.append_nil]

/-- The requests of an append that nothing but the supply holds up. -/
theorem append_issues (responsive : s.Responsive) (config : isConfigValid s.config = true) (initialized : s.initialized = true)
    (locked : s.mutexCreated = true) (record : Record)
    (inside : s.appendAddress record.size + record.size ≤ s.config.endAddr) :
    ∃ partition issued, PagePartition (s.appendAddress record.size) record.frame partition ∧ issued <+: partition ∧
      (s.flash.power = some 0 → issued = []) ∧
      (s.append record.frame).2.flash.requests =
        s.flash.requests ++ (eraseAt s.flash (s.appendAddress record.size) ++ issued) := by
  have flashEnd := ((isConfigValid_iff _).mp config).2.2.1
  have positive := record.size_pos
  have small := record.size_lt
  obtain ⟨addr, isAddr⟩ : ∃ addr, s.appendAddress record.size = addr := ⟨_, rfl⟩
  rw [isAddr] at inside ⊢
  obtain ⟨t, began, requests, unpowered⟩ := beginSector_issues responsive addr (by omega)
  have sameConfig := (Retains.beginSector s addr).config
  rw [began] at sameConfig
  obtain ⟨partition, issued, cuts, isPrefix, programmed, off⟩ := programPages_requests (s := t) (by rw [sameConfig]; exact flashEnd)
    s.writeAddr addr record.frame (by rw [sameConfig, record.length_frame]; exact inside)
  refine ⟨partition, issued, cuts, isPrefix, fun none' => off (unpowered none'), ?_⟩
  rw [← List.append_assoc, ← requests, ← programmed]
  have some' : record.frame.length ≠ 0 := by rw [record.length_frame]; omega
  have notLarge : ¬ record.frame.length > SECTOR_SIZE := by
    simp only [SECTOR_SIZE, record.length_frame]
    omega
  have goes : s.appendAddress record.frame.length = addr := by rw [record.length_frame, isAddr]
  simp only [append, initialized, some', lock, locked, notLarge, goes, began, Bool.not_true, Bool.false_eq_true, ↓reduceIte]
  split
  next failed => rw [failed]
  next last u done =>
    rw [done]
    split
    · rw [rebuild_flash]
    · rw [updateIndex_keeps]
      rfl

end FlashLogStorage

/-- Wherever the supply fails in it, an append programs erased cells only. -/
theorem Stored.programs_erased {h : LogHistory} {sectors : Nat → Sector} (stored : Stored h sectors) (power : Option Nat)
    (record : Record) :
    let u : FlashLogStorage := { h.storage with flash := { h.storage.flash with power } }
    ∃ issued, (u.append record.frame).2.flash.requests = u.flash.requests ++ issued ∧ ProgramsErased u.flash issued := by
  intro u
  have config := stored.contents.config
  obtain ⟨k, front, target⟩ := stored.position.target config record
  have sector := Config.base_inside config target.inside
  have room := target.room
  have place : u.appendAddress record.size = h.storage.config.base k + (frameBytes front).length := target.place
  have begins : isSectorStart (u.appendAddress record.size) = true ↔ front = [] := target.begins
  have responsive : u.Responsive := ⟨stored.working.flash.polls, stored.working.sharedIo⟩
  have inside : u.appendAddress record.size + record.size ≤ u.config.endAddr := by
    rw [place]
    change _ ≤ h.storage.config.endAddr
    omega
  obtain ⟨partition, issued, cuts, isPrefix, off, requests⟩ :=
    append_issues responsive config stored.initialized stored.locked record inside
  refine ⟨_, requests, ?_⟩
  by_cases atStart : isSectorStart (u.appendAddress record.size) = true
  · by_cases unpowered : u.flash.power = some 0
    · rw [eraseAt, if_neg fun both => both.2 unpowered, off unpowered]
      trivial
    · rw [eraseAt, if_pos ⟨atStart, unpowered⟩]
      refine cuts.programsErased isPrefix fun a above below => ?_
      have small := record.size_lt
      rw [record.length_frame] at below
      exact if_pos ⟨unpowered, above, by simp only [SECTOR_SIZE]; omega⟩
  · obtain ⟨records, clean⟩ := target.behind fun none' => atStart (begins.mpr none')
    have bytes : (sectors k).bytes = frameBytes front := by rw [Sector.bytes, records, clean, List.append_nil]
    have holds : Holds h.storage.flash (h.storage.config.base k) (frameBytes front) :=
      bytes ▸ stored.contents.holding k target.inside
    rw [eraseAt, if_neg fun both => atStart both.1, List.nil_append]
    refine cuts.programsErased isPrefix fun a above below => ?_
    rw [place] at above below
    rw [record.length_frame] at below
    exact holds.erased above (by omega)

/-- In a history of appends and cuts without a phantom frame, no append programs a cell that is not erased,
at whatever operation the supply fails. -/
theorem appends_program_erased {s : FlashLogStorage} (config : isConfigValid s.config = true) (working : s.Working)
    (erased : s.Erased) (steps : List PowerStep)
    (ordered : SerialOrder.Ascending (((LogHistory.start (s.init true).2).run steps).written.map Record.seq))
    (honest : ∀ front, front <+: steps → ((LogHistory.start (s.init true).2).run front).Honest) (power : Option Nat)
    (record : Record) :
    let h := (LogHistory.start (s.init true).2).run steps
    let u : FlashLogStorage := { h.storage with flash := { h.storage.flash with power } }
    ∃ issued, (u.append record.frame).2.flash.requests = u.flash.requests ++ issued ∧ ProgramsErased u.flash issued := by
  obtain ⟨t, started, sameConfig, works, represents, _, index⟩ := init_erased config working erased
  have begin' : (s.init true).2 = t := by rw [started]
  rw [begin'] at ordered honest ⊢
  rw [← sameConfig] at represents index
  obtain ⟨sectors, durable⟩ := run_durable (start_durable works represents index) steps honest ordered
  exact durable.toStored.programs_erased power record

/-- Behind two frames, a torn one and a fourth. -/
theorem appends_program_erased_cut :
    ∃ h, (LogHistory.start ((blankStorage ⟨0, 8192⟩).init true).2).run cutSteps = h ∧
      let u : FlashLogStorage := { h.storage with flash := { h.storage.flash with power := some 9 } }
      ∃ issued, (u.append (sampleRecord 4 5 five_fits).frame).2.flash.requests = u.flash.requests ++ issued ∧
        ProgramsErased u.flash issued := by
  have conditions := cutSteps_run cutSteps List.prefix_rfl
  exact ⟨_, rfl, appends_program_erased (s := blankStorage ⟨0, 8192⟩) (by decide) (blankStorage_working _)
    (blankStorage_erased _) cutSteps conditions.1 conditions.2 (some 9) (sampleRecord 4 5 five_fits)⟩

/-- The sectors that a request list erases, in order. -/
def erasedAddresses (requests : List FlashRequest) : List Nat :=
  requests.filterMap fun
    | .sectorErase addr => some addr
    | .pageProgram _ _ => none

theorem erasedAddresses_append (front back : List FlashRequest) :
    erasedAddresses (front ++ back) = erasedAddresses front ++ erasedAddresses back := List.filterMap_append

theorem PagePartition.erasedAddresses {addr : Nat} {data : List UInt8} {partition issued : List FlashRequest}
    (cuts : PagePartition addr data partition) (isPrefix : issued <+: partition) : erasedAddresses issued = [] := by
  rw [PicoWLogger.erasedAddresses, List.filterMap_eq_nil_iff]
  intro request member
  cases request with
  | pageProgram addr data => rfl
  | sectorErase addr => exact absurd rfl (cuts.no_erase _ (isPrefix.subset member) addr)

/-- Sector after sector, round the area. -/
def rotation (config : Config) (turns : Nat) : List Nat := (List.range turns).map fun i => config.base (i % config.sectors)

theorem rotation_succ (config : Config) (turns : Nat) :
    rotation config (turns + 1) = rotation config turns ++ [config.base (turns % config.sectors)] := by
  rw [rotation, List.range_succ, List.map_append, List.map_singleton]
  rfl

theorem count_rotation {config : Config} {k : Nat} (inside : k < config.sectors) (turns : Nat) :
    (rotation config turns).count (config.base k) = Nat.count (· ≡ k [MOD config.sectors]) turns := by
  induction turns with
  | zero => rfl
  | succ turns ih =>
    rw [rotation_succ, List.count_append, ih, Nat.count_succ, List.count_singleton]
    congr 1
    have same : config.base (turns % config.sectors) = config.base k ↔ turns ≡ k [MOD config.sectors] := by
      rw [Nat.ModEq, Nat.mod_eq_of_lt inside]
      simp only [Config.base]
      omega
    by_cases turn : turns ≡ k [MOD config.sectors]
    · rw [if_pos turn, if_pos (beq_iff_eq.mpr (same.mpr turn))]
    · rw [if_neg turn, if_neg fun equal => turn (same.mp (beq_iff_eq.mp equal))]

/-- A rotation comes to no sector twice more than to another. -/
theorem rotation_even {config : Config} {j k : Nat} (left : j < config.sectors) (right : k < config.sectors) (turns : Nat) :
    (rotation config turns).count (config.base j) ≤ (rotation config turns).count (config.base k) + 1 := by
  rw [count_rotation left, count_rotation right, Nat.count_modEq_card _ (by omega), Nat.count_modEq_card _ (by omega)]
  split <;> split <;> omega

/-- After so many sectors were begun the ring stands in the last of them, and those before are full but
for the room that a frame did not fit in. -/
structure Rotated (config : Config) (ring : RingLog) (turns bytes : Nat) : Prop where
  current : config.next ring.current = turns % config.sectors
  filled : (turns = 0 ∧ ring.used ring.current = 0) ∨
    (0 < turns ∧ 0 < ring.used ring.current ∧ 4015 * turns + ring.used ring.current ≤ bytes + 4015)

namespace Rotated
variable {s : FlashLogStorage} {ring : RingLog} {turns bytes : Nat}

theorem fresh {config : Config} (valid : isConfigValid config = true) : Rotated config (.fresh config) 0 0 := by
  have area := (Config.shape valid).2.2.1
  refine ⟨?_, .inl ⟨rfl, rfl⟩⟩
  change (config.sectors - 1 + 1) % config.sectors = 0 % config.sectors
  rw [Nat.sub_add_cancel (by omega), Nat.mod_self, Nat.zero_mod]

theorem append (rotated : Rotated s.config ring turns bytes) (represents : Represents s ring) (record : Record) :
    ∃ begun, Rotated s.config (ring.append s.config record) (turns + begun) (bytes + record.size) ∧
      rotation s.config (turns + begun) = rotation s.config turns ++
        if isSectorStart (s.appendAddress record.size) = true then [s.appendAddress record.size] else [] := by
  obtain ⟨current, filled⟩ := rotated
  have config := represents.imaged.config
  have place := represents.appendAddress record
  have positive := record.size_pos
  have small : record.size ≤ 82 := record.size_le
  obtain ⟨sector, used⟩ := Represents.append_current s.config ring record
  by_cases extends' : ring.Extends record
  · have room : 0 < ring.used ring.current ∧ ring.used ring.current + record.size ≤ 4096 := extends'
    have inside := Config.base_inside config represents.current
    rw [if_pos extends'] at place sector used
    refine ⟨0, ⟨by rw [sector]; exact current, .inr ?_⟩, ?_⟩
    · rw [used]
      omega
    · have inSector : ¬ isSectorStart (s.appendAddress record.size) = true := by
        rw [place, isSectorStart, decide_eq_true_eq]
        simp only [SECTOR_SIZE]
        omega
      rw [if_neg inSector, List.append_nil, Nat.add_zero]
  · have full : ring.used ring.current = 0 ∨ 4096 < ring.used ring.current + record.size := by
      by_contra room
      exact extends' ⟨by omega, by omega⟩
    have inside := Config.base_inside config (Config.next_lt config ring.current)
    rw [if_neg extends'] at place sector used
    refine ⟨1, ⟨?_, .inr ?_⟩, ?_⟩
    · rw [sector, Config.next, current, Nat.mod_add_mod]
    · rw [used]
      omega
    · have atStart : isSectorStart (s.appendAddress record.size) = true := by
        rw [place, isSectorStart, decide_eq_true_eq]
        exact inside.2.2
      rw [if_pos atStart, rotation_succ, place, current]

end Rotated

/-- Over a run of appends the erases go round the area. -/
theorem appendAll_rotates {s : FlashLogStorage} (config : isConfigValid s.config = true) (working : s.Working)
    (represents : Represents s (.fresh s.config)) (records : List Record) :
    ∃ issued turns, (s.appendAll records).flash.requests = s.flash.requests ++ issued ∧
      erasedAddresses issued = rotation s.config turns ∧
      Rotated s.config (RingLog.appendAll s.config (.fresh s.config) records) turns (records.map Record.size).sum := by
  induction records using List.reverseRecOn with
  | nil => exact ⟨[], 0, (List.append_nil _).symm, rfl, .fresh config⟩
  | append_singleton records record ih =>
    obtain ⟨issued, turns, requests, erases, rotated⟩ := ih
    obtain ⟨sameConfig, works, related⟩ := represents.appendAll working records
    rw [← sameConfig] at rotated erases ⊢
    obtain ⟨begun, turned, rotates⟩ := rotated.append (by rw [sameConfig]; exact related) record
    obtain ⟨partition, programs, cuts, isPrefix, _, asked⟩ := append_issues works.responsive related.imaged.config
      related.initialized related.locked record (related.appendAddress_inside record)
    have erase : erasedAddresses (eraseAt (s.appendAll records).flash ((s.appendAll records).appendAddress record.size)) =
        if isSectorStart ((s.appendAll records).appendAddress record.size) = true then
          [(s.appendAll records).appendAddress record.size] else [] := by
      rw [eraseAt]
      by_cases atStart : isSectorStart ((s.appendAll records).appendAddress record.size) = true
      · rw [if_pos ⟨atStart, by simp [works.flash.power]⟩, if_pos atStart]
        rfl
      · rw [if_neg fun both => atStart both.1, if_neg atStart]
        rfl
    refine ⟨issued ++ (eraseAt (s.appendAll records).flash ((s.appendAll records).appendAddress record.size) ++ programs),
      turns + begun, ?_, ?_, ?_⟩
    · rw [appendAll_concat, asked, requests, List.append_assoc]
    · rw [erasedAddresses_append, erasedAddresses_append, erases, erase, cuts.erasedAddresses isPrefix, List.append_nil, rotates]
    · rw [RingLog.appendAll_concat, List.map_append, List.sum_append]
      exact turned

/-- Over every run of appends on an erased area the sectors are erased in rotation, none more than once oftener
than another, and the erases after the first are paid for by 4015 bytes of frames each. -/
theorem sectors_wear_evenly {s : FlashLogStorage} (config : isConfigValid s.config = true) (working : s.Working)
    (erased : s.Erased) (records : List Record) :
    let t := (s.init true).2
    ∃ issued turns, (t.appendAll records).flash.requests = t.flash.requests ++ issued ∧
      erasedAddresses issued = rotation s.config turns ∧
      (∀ j < s.config.sectors, ∀ k < s.config.sectors, (erasedAddresses issued).count (s.config.base j) ≤
        (erasedAddresses issued).count (s.config.base k) + 1) ∧
      4015 * turns ≤ (records.map Record.size).sum + 4015 := by
  intro t
  obtain ⟨u, started, sameConfig, works, represents, _, _⟩ := init_erased config working erased
  have isT : t = u := congrArg Prod.snd started
  rw [isT, ← sameConfig]
  rw [← sameConfig] at config represents
  obtain ⟨issued, turns, requests, erases, rotated⟩ := appendAll_rotates config works represents records
  refine ⟨issued, turns, requests, erases, fun j left k right => ?_, ?_⟩
  · rw [erases]
    exact rotation_even left right turns
  · rcases rotated.filled with ⟨none', _⟩ | ⟨_, _, most⟩
    · omega
    · omega

/-- Frames of 4600 bytes take no more than two sectors. -/
theorem sectors_wear_evenly_short :
    let t := ((blankStorage ⟨0x1000, 0x101000⟩).init true).2
    ∃ issued turns, (t.appendAll (shortRecords (List.replicate 200 7))).flash.requests = t.flash.requests ++ issued ∧
      erasedAddresses issued = rotation ⟨0x1000, 0x101000⟩ turns ∧ turns ≤ 2 := by
  intro t
  obtain ⟨seqs, isSeqs⟩ : ∃ seqs : List UInt32, List.replicate 200 7 = seqs := ⟨_, rfl⟩
  have count : seqs.length = 200 := by rw [← isSeqs, List.length_replicate]
  rw [isSeqs]
  obtain ⟨issued, turns, requests, erases, _, most⟩ := sectors_wear_evenly (s := blankStorage ⟨0x1000, 0x101000⟩) (by decide)
    (blankStorage_working _) (blankStorage_erased _) (shortRecords seqs)
  have size := length_shortRecords seqs
  rw [length_frameBytes, count] at size
  rw [size] at most
  exact ⟨issued, turns, requests, erases, by omega⟩

end PicoWLogger
