import PicoWLogger.Proofs.FoundFrames
import PicoWLogger.Proofs.PowerCut

/-! Phantom frames after a power cut. The recovery scan goes byte by byte through what a cut left of
a frame, and takes frame bytes in its payload for a frame. -/

namespace PicoWLogger
open FlashLogStorage

namespace LogHistory

/-- Everything the log counts or sends is a frame programmed whole, at its place. -/
structure Genuine (h : LogHistory) : Prop where
  count : h.storage.validFrameCount = h.storage.found.length
  counted : ∀ hit ∈ h.storage.found, ∃ place ∈ h.complete, hit = hitOf place
  sent : ∀ frame ∈ h.storage.sendFramesOldestFirst.2, ∃ place ∈ h.complete, frame = place.2.frame

end LogHistory

theorem written_run (h : LogHistory) (steps : List PowerStep) {record : Record} (member : record ∈ (h.run steps).written) :
    record ∈ h.written ∨ record ∈ steps.map PowerStep.record := by
  induction steps generalizing h with
  | nil => exact .inl member
  | cons step rest ih =>
    rcases ih (h.step step) member with before | later
    · cases step with
      | append last =>
        rcases List.mem_append.mp before with old | new
        · exact .inl old
        · split at new
          · exact .inr (List.mem_singleton.mp new ▸ List.mem_cons_self)
          · cases new
      | cut last budget =>
        rcases List.mem_append.mp before with old | new
        · exact .inl old
        · split at new
          · exact .inr (List.mem_singleton.mp new ▸ List.mem_cons_self)
          · cases new
    · exact .inr (List.mem_cons_of_mem _ later)

theorem run_whole {h : LogHistory} {sectors : Nat → Sector} (stored : Stored h sectors) (whole : ∀ k, (sectors k).torn = [])
    (records : List Record) :
    ∃ sectors', Stored (h.run (records.map .append)) sectors' ∧ ∀ k, (sectors' k).torn = [] := by
  induction records generalizing h sectors with
  | nil => exact ⟨sectors, stored, whole⟩
  | cons record rest ih =>
    obtain ⟨k, front, target⟩ := stored.position.target stored.contents.config record
    obtain ⟨_, next, _⟩ := stored.append target
    refine ih next fun j => ?_
    by_cases same : j = k
    · rw [same, Function.update_self]
      rfl
    · rw [Function.update_of_ne same]
      exact whole j

section Contents
variable {s : FlashLogStorage} {complete : List (Nat × Record)} {sectors : Nat → Sector}

/-- Where nothing in the remains passes the check, the scan finds the frames programmed whole. -/
theorem Contents.genuine {written : List Record} {acked : List (Nat × Record)} (contents : Contents s complete sectors)
    (quiet : ∀ k < s.config.sectors, ∀ addr, s.config.base k + (frameBytes (sectors k).records).length ≤ addr →
      addr < s.config.base k + (sectors k).bytes.length → s.isValidFrameAt addr = none) :
    LogHistory.Genuine ⟨s.restart, written, complete, acked⟩ := by
  have config := contents.config
  have sameConfig := restart_config config
  have sameFlash := restart_flash config
  have imaged : Imaged s sectors := ⟨config, contents.holding, quiet⟩
  have again : Imaged s.restart sectors := imaged.congr sameConfig fun _ _ _ => by rw [sameFlash]
  have located : Located s.restart := by
    rw [restart_rebuilds config]
    exact rebuild_located config
  have locked : s.restart.mutexCreated = true := by
    rw [restart_rebuilds config, rebuildIndexFromFlash_keeps]
    rfl
  have place {hit : Scanner.Hit LogFrameHeader} (member : hit ∈ s.restart.found) :
      ∃ place ∈ complete, hit = hitOf place ∧ s.restart.flash.cellsFrom place.1 place.2.size = place.2.frame := by
    have found : s.restart.found = (Imaged.inOrder s.restart.config sectors).map hitOf := again.hits
    rw [found] at member
    obtain ⟨place, listed, rfl⟩ := List.mem_map.mp member
    obtain ⟨k, range, here⟩ := List.mem_flatMap.mp listed
    rw [sameConfig] at listed
    exact ⟨place, contents.perm.mem_iff.mpr listed, rfl, (again.valid (List.mem_range.mp range) here).2⟩
  constructor
  · exact located.count
  · intro hit member
    obtain ⟨place, listed, same, _⟩ := place member
    exact ⟨place, listed, same⟩
  · intro frame sent
    obtain ⟨hit, member, rfl⟩ := located.sent_found (by rw [sameConfig]; exact config) locked sent
    obtain ⟨place, listed, rfl, bytes⟩ := place member
    exact ⟨place, listed, bytes⟩

/-- Where everything found is genuine, no address behind the whole frames of a sector passes the check. -/
theorem Contents.quiet_of_genuine {h : LogHistory} (contents : Contents h.storage h.complete sectors)
    (genuine : h.Genuine) {k : Nat} (inside : k < h.storage.config.sectors) {addr : Nat}
    (above : h.storage.config.base k + (frameBytes (sectors k).records).length ≤ addr)
    (below : addr < h.storage.config.base k + 4096) : h.storage.isValidFrameAt addr = none := by
  obtain ⟨behind, isBehind⟩ : ∃ behind, h.storage.config.base k + (frameBytes (sectors k).records).length = behind := ⟨_, rfl⟩
  rw [isBehind] at above
  have config := contents.config
  have sector := Config.base_inside config inside
  have placed' {hit : Scanner.Hit LogFrameHeader} (member : hit ∈ h.storage.found) :
      ∃ j < h.storage.config.sectors, h.storage.config.base j ≤ hit.addr ∧ hit.addr + hit.width ≤ h.storage.config.base j + 4096 ∧
        0 < hit.width ∧ (j = k → hit.addr + hit.width ≤ behind) := by
    obtain ⟨place, listed, rfl⟩ := genuine.counted hit member
    obtain ⟨j, range, here⟩ := List.mem_flatMap.mp (contents.perm.mem_iff.mp listed)
    have within := List.mem_range.mp range
    have fits : (sectors j).bytes.length ≤ 4096 := (contents.holding j within).fits
    have bounds := placed_bounds here
    rw [Sector.bytes, List.length_append] at fits
    refine ⟨j, within, bounds.1, by simp only [hitOf]; omega, place.2.size_pos, ?_⟩
    rintro rfl
    rw [← isBehind]
    exact bounds.2
  have splits : h.storage.Splits behind := by
    intro hit member
    obtain ⟨j, within, low, high, _, ends⟩ := placed' member
    by_cases same : j = k
    · exact .inl (ends same)
    · rcases h.storage.config.base_apart same with before | after
      · exact .inl (by omega)
      · exact .inr (by omega)
  have nothing : h.storage.scanner.hits (h.storage.config.base k + 4096) behind = [] := by
    rw [List.eq_nil_iff_forall_not_mem]
    intro hit member
    obtain ⟨low, high, _⟩ := Scanner.mem_hits member
    have inFound : hit ∈ h.storage.found := by
      rw [found_split splits (by omega) (by omega)]
      exact List.mem_append_right _ ((Scanner.hits_prefix sector.2.1).subset member)
    obtain ⟨j, within, first, last, positive, ends⟩ := placed' inFound
    by_cases same : j = k
    · have before := ends same
      omega
    · rcases h.storage.config.base_apart same with before | after
      · omega
      · omega
  exact Scanner.hits_nil nothing above below

end Contents

/-- Bytes behind the whole frames of a sector lie in the place of a frame that the cut left torn. -/
theorem CutOutcome.remains {h : LogHistory} {sectors sectors' : Nat → Sector} {record : Record} {budget : Nat}
    {v : FlashLogStorage} (outcome : CutOutcome h sectors record budget v sectors') (area : v.config = h.storage.config)
    (clean : ∀ j, (sectors j).bytes.length = (frameBytes (sectors j).records).length) {j a : Nat}
    (above : v.config.base j + (frameBytes (sectors' j).records).length ≤ a)
    (below : a < v.config.base j + (sectors' j).bytes.length) :
    ¬ (isSectorStart (h.storage.appendAddress record.size) = true ∧ budget = 0) ∧
      v.flash.cellsFrom (h.storage.appendAddress record.size) record.size ≠ record.frame ∧
      ∃ offset < record.size, a = h.storage.appendAddress record.size + offset := by
  cases outcome with
  | unpowered cut same =>
    rw [same] at above below
    rw [clean j] at below
    omega
  | @programmed k front part powered target isPrefix _ same =>
    by_cases other : j = k
    · subst other
      rw [same, Function.update_self, settled] at above below
      split at above
      next held =>
        rw [if_pos held, Sector.bytes_whole] at below
        exact absurd below (not_lt.mpr above)
      next torn =>
        rw [if_neg torn] at below
        simp only [Sector.bytes, List.length_append] at above below
        have shorter := isPrefix.length_le
        rw [record.length_frame] at shorter
        rw [area] at above below
        refine ⟨powered, by rw [target.place]; exact torn, a - h.storage.appendAddress record.size, ?_, ?_⟩
        · rw [target.place]
          omega
        · rw [target.place]
          omega
    · rw [same, Function.update_of_ne other] at above below
      rw [clean j] at below
      omega

/-- A cut after which everything found is genuine left nothing behind the whole frames that passes the check. -/
theorem CutOutcome.quiet {h after : LogHistory} {sectors sectors' : Nat → Sector} {record : Record} {budget : Nat}
    {v : FlashLogStorage} (outcome : CutOutcome h sectors record budget v sectors') (areaV : v.config = h.storage.config)
    (contents : Contents after.storage after.complete sectors') (area : after.storage.config = v.config)
    (flash : after.storage.flash = v.flash) (genuine : after.Genuine)
    (powered : ¬ (isSectorStart (h.storage.appendAddress record.size) = true ∧ budget = 0))
    (torn : after.storage.flash.cellsFrom (h.storage.appendAddress record.size) record.size ≠ record.frame)
    (offset : Nat) (inside : offset < record.size) :
    after.storage.isValidFrameAt (h.storage.appendAddress record.size + offset) = none := by
  cases outcome with
  | unpowered cut => exact absurd cut powered
  | @programmed k front part _ target isPrefix _ same =>
    have room := target.room
    rw [flash, target.place] at torn
    have settled' : sectors' k = { records := front, torn := part } := by
      rw [same, Function.update_self, settled, if_neg torn]
    have inside' : k < after.storage.config.sectors := by rw [area, areaV]; exact target.inside
    rw [target.place, ← areaV, ← area]
    exact contents.quiet_of_genuine genuine inside' (by rw [settled']; exact Nat.le_add_right _ _) (by omega)

/-- A cut of an append where the flash held whole frames only. -/
theorem Stored.genuine_cut_iff {h : LogHistory} {sectors : Nat → Sector} (stored : Stored h sectors)
    (whole : ∀ j, (sectors j).torn = []) (record : Record) (budget : Nat) :
    let addr := h.storage.appendAddress record.size
    let after := h.step (.cut record budget)
    after.Genuine ↔ isSectorStart addr = true ∧ budget = 0 ∨ after.storage.flash.cellsFrom addr record.size = record.frame ∨
      ∀ offset < record.size, after.storage.isValidFrameAt (addr + offset) = none := by
  intro addr after
  obtain ⟨v, sectors', areaV, _, restarted, outcome, contents, _, _⟩ := stored.cut record budget
  have shape : after = ⟨v.restart, after.written, after.complete, after.acked⟩ := by rw [← restarted]
  have config := contents.config
  have flash : after.storage.flash = v.flash := by rw [restarted, restart_flash config]
  have area : after.storage.config = v.config := by rw [restarted, restart_config config]
  have check (a : Nat) : after.storage.isValidFrameAt a = v.isValidFrameAt a :=
    isValidFrameAt_congr config area (fun _ _ _ => by rw [flash]) a
  have clean (j : Nat) : (sectors j).bytes.length = (frameBytes (sectors j).records).length := by
    rw [Sector.bytes, whole j, List.append_nil]
  constructor
  · intro genuine
    by_cases never : isSectorStart addr = true ∧ budget = 0
    · exact .inl never
    by_cases held : after.storage.flash.cellsFrom addr record.size = record.frame
    · exact .inr (.inl held)
    have again : Contents after.storage after.complete sectors' := contents.congr area (by rw [flash])
    exact .inr (.inr (outcome.quiet areaV again area flash genuine never held))
  · intro condition
    rw [shape]
    apply contents.genuine
    intro j inside a above below
    obtain ⟨powered, torn, offset, within, rfl⟩ := outcome.remains areaV clean above below
    rcases condition with never | held | quiet
    · exact absurd never powered
    · rw [flash] at held
      exact absurd held torn
    · rw [← check]
      exact quiet offset within

/-- No phantom frames: after appends from an erased area and a cut, what the log counts and sends is frames
programmed whole if and only if the cut leaves nothing of its frame, or all of it, or remains in which
no frame begins. -/
theorem no_phantom_iff {s : FlashLogStorage} (config : isConfigValid s.config = true) (working : s.Working)
    (erased : s.Erased) (records : List Record) (last : Record) (budget : Nat) :
    let addr := ((s.init true).2.appendAll records).appendAddress last.size
    let h := (LogHistory.start (s.init true).2).run (records.map .append ++ [.cut last budget])
    (∀ place ∈ h.complete, place.2 ∈ records ++ [last]) ∧
      (h.Genuine ↔ isSectorStart addr = true ∧ budget = 0 ∨ h.storage.flash.cellsFrom addr last.size = last.frame ∨
        ∀ offset < last.size, h.storage.isValidFrameAt (addr + offset) = none) := by
  intro addr h
  obtain ⟨t, started, sameConfig, works, represents, _, index⟩ := init_erased config working erased
  have begin' : (s.init true).2 = t := by rw [started]
  rw [← sameConfig] at represents index
  obtain ⟨sectors, stored, whole⟩ := run_whole (start_durable works represents index).toStored (fun _ => rfl) records
  obtain ⟨before, isBefore⟩ : ∃ before, (LogHistory.start t).run (records.map .append) = before := ⟨_, rfl⟩
  rw [isBefore] at stored
  have running : before.storage = t.appendAll records := by rw [← isBefore, LogHistory.run_appends]; rfl
  have isH : h = before.step (.cut last budget) := by
    simp only [h]
    rw [begin', LogHistory.run_concat, isBefore]
  have isAddr : addr = before.storage.appendAddress last.size := by simp only [addr]; rw [begin', running]
  refine ⟨fun place member => ?_, ?_⟩
  · obtain ⟨_, _, _, _, _, _, _, _, written⟩ := stored.cut last budget
    rw [← isH] at written
    have passed := written.subset (List.mem_map_of_mem member)
    simp only [h] at passed
    rcases written_run _ _ passed with none' | step
    · cases none'
    · rw [List.map_append, List.map_map] at step
      simpa [Function.comp_def, PowerStep.record] using step
  · rw [isH, isAddr]
    exact stored.genuine_cut_iff whole last budget

theorem erased_oneSector {s : FlashLogStorage} {block : List Record} (represents : Represents s (oneSector block))
    (area : s.config = ⟨0, 8192⟩) {addr : Nat} (above : (frameBytes block).length ≤ addr) (below : addr < 4096) :
    s.flash.cells addr = 0xFF := by
  have held := represents.imaged.holds 0 (by rw [area]; decide)
  refine held.erased ?_ (by rw [area, Config.base]; omega)
  rw [area, Sector.bytes_whole]
  simpa only [oneSector, Function.update_self, Config.base, Nat.mul_zero, Nat.zero_add] using above

/-- Two frames, and a cut in the first bytes of a third. -/
theorem no_phantom_torn_start :
    ((LogHistory.start ((blankStorage ⟨0, 8192⟩).init true).2).run ((shortRecords [0, 1]).map .append ++
      [.cut (sampleRecord 2 5 five_fits) 5])).Genuine := by
  have genuine := (no_phantom_iff (s := blankStorage ⟨0, 8192⟩) (by decide) (blankStorage_working _) (blankStorage_erased _)
    (shortRecords [0, 1]) (sampleRecord 2 5 five_fits) 5).2
  have place := appendAddress_oneSector (shortRecords [0, 1]) (by simp [shortRecords]) (sampleRecord 2 5 five_fits)
    (by decide +kernel)
  obtain ⟨area, represents, _⟩ := appendAll_oneSector (shortRecords [0, 1]) (by simp [shortRecords])
    (by rw [length_shortRecords]; decide)
  have honest := (cutSteps_run (cutSteps.take 3) (List.take_prefix _ _)).2
  have ordered := (cutSteps_run (cutSteps.take 2) (List.take_prefix _ _)).1
  obtain ⟨t, started, sameConfig, works, fresh, _, index⟩ := init_erased (s := blankStorage ⟨0, 8192⟩) (by decide)
    (blankStorage_working _) (blankStorage_erased _)
  have isT : ((blankStorage ⟨0, 8192⟩).init true).2 = t := congrArg Prod.snd started
  rw [isT] at genuine place area represents honest ordered ⊢
  rw [← sameConfig] at fresh index
  replace place : (t.appendAll (shortRecords [0, 1])).appendAddress (sampleRecord 2 5 five_fits).size = 46 := by
    rw [place, length_shortRecords]
    rfl
  obtain ⟨before, isBefore⟩ : ∃ before, (LogHistory.start t).run (cutSteps.take 2) = before := ⟨_, rfl⟩
  have storage : t.appendAll (shortRecords [0, 1]) = before.storage := by rw [← isBefore]; rfl
  obtain ⟨sectors, durable⟩ := run_durable (start_durable works fresh index) (cutSteps.take 2)
    (fun front part => honest front (part.trans ⟨_, rfl⟩)) ordered
  rw [isBefore] at durable
  rw [storage] at place area represents
  have imaged := durable.imaged (isBefore ▸ honest (cutSteps.take 2) ⟨_, rfl⟩)
  -- behind the two frames the sector is erased, so neither of them is there
  have apart {other : Nat × Record} (member : other ∈ before.complete) {offset : Nat} (within : offset < 23) :
      other.1 ≠ 46 + offset := by
    intro here
    obtain ⟨k, range, listed⟩ := List.mem_flatMap.mp (durable.contents.perm.mem_iff.mp member)
    have valid := (imaged.valid (List.mem_range.mp range) listed).1
    obtain ⟨_, _, magic, _⟩ := isValidFrameAt_magic imaged.config (by rw [valid]; rfl)
    have clean := erased_oneSector represents area (by rw [length_shortRecords, here]; simp : _ ≤ other.1) (by omega)
    rw [clean] at magic
    exact absurd magic (by decide)
  refine genuine.mpr ?_
  rw [storage, place]
  obtain ⟨h, isH⟩ : ∃ h, before.step (.cut (sampleRecord 2 5 five_fits) 5) = h := ⟨_, rfl⟩
  have last : (LogHistory.start t).run ((shortRecords [0, 1]).map .append ++ [.cut (sampleRecord 2 5 five_fits) 5]) = h := by
    rw [← isH, ← isBefore]
    rfl
  have quiet := honest (cutSteps.take 3) List.prefix_rfl
  rw [show (LogHistory.start t).run (cutSteps.take 3) = h from last] at quiet
  rw [last]
  by_cases held : h.storage.flash.cellsFrom 46 (sampleRecord 2 5 five_fits).size = (sampleRecord 2 5 five_fits).frame
  · exact .inr (.inl held)
  refine .inr (.inr fun offset within => ?_)
  rw [← Option.not_isSome_iff_eq_none]
  intro valid
  obtain ⟨other, member, here⟩ := List.mem_map.mp (quiet _ valid)
  have torn : h.complete = before.complete := by
    rw [← isH] at held ⊢
    have part : ¬ (before.storage.cutAppend 5 (sampleRecord 2 5 five_fits).frame).flash.cellsFrom 46
        (sampleRecord 2 5 five_fits).size = (sampleRecord 2 5 five_fits).frame := held
    have inner : isSectorStart 46 = false := by decide
    rw [LogHistory.step, advance_powered _ _ _ _ (by rw [place]; decide), place, if_neg part, if_neg part]
    simp [outliving, inner]
  rw [torn] at member
  exact apart member within here

/-- A text record whose payload begins with a whole frame. -/
def carrier : Record where
  val :=
    { seq := 1, eventId := EventId.TEXT_LOG, level := LogLevel.INFO, length := 64, timestampUs := 0
      payload := Vector.ofFn fun i => (sampleRecord 7 0 (by decide)).frame.getD i 0 }
  property := by decide

private theorem carrier_payload {i : Nat} (inside : i < 64) :
    carrier.frame.getD (14 + i) 0xFF = (sampleRecord 7 0 (by decide)).frame.getD i 0 := by
  have length : carrier.val.data.length = 64 := by
    rw [LogEvent.data, List.length_take, Vector.length_toList]
    rfl
  have front : (LOG_FRAME_MAGIC ++ carrier.val.header.toBytes).length = 14 := by simp [LOG_FRAME_MAGIC]
  rw [Record.frame, LogEvent.frame, LogEvent.body, List.append_assoc, List.getD_append_right _ _ _ _ (by omega), front,
    Nat.add_sub_cancel_left, List.getD_append _ _ _ _ (by omega), List.getD_eq_getElem _ _ (by omega)]
  simp [LogEvent.data, carrier]

/-- A cut in the payload of a first record leaves no whole frame, and the log counts one. -/
theorem cut_leaves_phantom :
    let h := (LogHistory.start ((blankStorage ⟨0, 4096⟩).init true).2).run [.cut carrier 33]
    h.complete = [] ∧ h.storage.validFrameCount ≠ 0 := by
  intro h
  obtain ⟨t, started, area, works, represents, _, index⟩ := init_erased (s := blankStorage ⟨0, 4096⟩) (by decide)
    (blankStorage_working _) (blankStorage_erased _)
  have begin' : ((blankStorage ⟨0, 4096⟩).init true).2 = t := by rw [started]
  have write : t.writeAddr = 0 := congrArg Index.writeAddr index
  have place := first_place area write carrier
  have isH : h = (LogHistory.start t).step (.cut carrier 33) := by
    simp only [h]
    rw [begin']
    rfl
  have storage : h.storage = t.cutAppend 33 carrier.frame := by rw [isH]; rfl
  obtain ⟨u, isU⟩ : ∃ u, t.cutAppend 33 carrier.frame = u := ⟨_, rfl⟩
  have cells {a : Nat} (below : a < 4096) : u.flash.cells a = (carrier.frame.take 32).getD a 0xFF := by
    rw [← isU]
    exact first_cut_cells area works represents.initialized represents.locked write carrier 32 below
  have config : isConfigValid t.config = true := by rw [area]; decide
  have length : carrier.frame.length = 82 := by rw [carrier.length_frame]; rfl
  have inner : (sampleRecord 7 0 (by decide)).frame.length = 18 := by rw [Record.length_frame]; rfl
  have located : Located u := by
    rw [← isU, cutAppend, restart_rebuilds (by exact config)]
    exact rebuild_located config
  have areaU : u.config = ⟨0, 4096⟩ := by
    rw [← isU, cutAppend, restart_config (by exact config)]
    exact area
  rw [isU] at storage
  refine ⟨?_, ?_⟩
  · have torn : u.flash.cellsFrom 0 carrier.size ≠ carrier.frame := by
      intro whole
      have last := congrArg (fun bytes => bytes.getD 32 0xFF) whole
      have beyond : (carrier.frame.take 32).getD 32 0xFF = 0xFF := List.getD_eq_default _ _ (by simp)
      have payload : carrier.frame.getD 32 0xFF = 0 :=
        (carrier_payload (i := 18) (by decide)).trans (List.getD_eq_default _ _ (Nat.le_of_eq inner))
      rw [List.getD_eq_getElem _ _ (by rw [FlashDriver.length_cellsFrom]; decide), FlashDriver.getElem_cellsFrom,
        cells (by decide), beyond, payload] at last
      exact absurd last (by decide)
    have complete : h.complete = if ¬ (isSectorStart 0 = true ∧ some 33 = some 0) ∧
        u.flash.cellsFrom 0 carrier.size = carrier.frame then [(0, carrier)] else [] := by
      have fresh : (LogHistory.start t).storage = t ∧ (LogHistory.start t).complete = [] := ⟨rfl, rfl⟩
      have nothing (begins : Bool) : outliving begins 0 [] = [] := by cases begins <;> rfl
      rw [isH, LogHistory.step, LogHistory.advance]
      simp only [fresh, place, isU, nothing, List.nil_append]
    rw [complete, if_neg fun both => torn both.2]
  · rw [storage, located.count]
    intro nothing
    have none' := List.eq_nil_of_length_eq_zero nothing
    have missing := Scanner.hits_nil none' (a := 14) (by rw [areaU]; decide) (by rw [areaU]; decide)
    have valid : u.isValidFrameAt 14 = some ((sampleRecord 7 0 (by decide)).header, 18) := by
      refine (isValidFrameAt_iff (by rw [areaU]; decide) _ _ _).mpr ⟨by rw [areaU]; decide, by rw [areaU]; decide, _, rfl, rfl, ?_⟩
      apply List.ext_getElem
      · rw [FlashDriver.length_cellsFrom, inner]
      · intro i first second
        rw [FlashDriver.length_cellsFrom] at first
        have payload := carrier_payload (i := i) (by omega)
        rw [List.getD_eq_getElem _ _ second, List.getD_eq_getElem _ _ (by omega)] at payload
        rw [FlashDriver.getElem_cellsFrom, cells (by omega), List.getD_eq_getElem _ _ (by rw [List.length_take, length]; omega),
          List.getElem_take]
        exact payload
    rw [show u.isValidFrameAt 14 = none from missing] at valid
    cases valid

end PicoWLogger
