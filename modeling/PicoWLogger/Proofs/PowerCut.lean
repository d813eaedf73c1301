import PicoWLogger.Proofs.StoredFrames

/-! Durability across power cuts. Whatever prefix of a frame a cut leaves behind, the
recovery scan counts the frames programmed whole and the next append finds room. -/

namespace PicoWLogger
open FlashLogStorage

/-- What holds of the log between any two appends of a run. -/
structure Durable (h : LogHistory) (sectors : Nat → Sector) : Prop extends Stored h sectors where
  count : h.storage.validFrameCount = h.complete.length

namespace Durable
variable {h : LogHistory} {sectors : Nat → Sector}

theorem imaged (durable : Durable h sectors) (honest : h.Honest) : Imaged h.storage sectors :=
  durable.contents.imaged honest

private theorem begun_count (durable : Durable h sectors) (honest : h.Honest) {record : Record} {k : Nat}
    {front : List Record} (target : Target h.storage sectors record k front) :
    (h.storage.begun (h.storage.appendAddress record.size)).validFrameCount =
      (outliving (isSectorStart (h.storage.appendAddress record.size)) (h.storage.appendAddress record.size)
        h.complete).length := by
  have perm := durable.contents.perm
  by_cases begins : isSectorStart (h.storage.appendAddress record.size) = true
  · have place := target.place
    have none' := target.begins.mp begins
    rw [none', frameBytes_nil, List.length_nil, Nat.add_zero] at place
    have fewer := (invalidate_imaged (durable.imaged honest) target.inside
      (durable.count.trans perm.length_eq)).1
    have split := RingOrder.unroll_eq target.inside fun j => placed (h.storage.config.base j) (sectors j).records
    have total := (RingOrder.unroll_perm h.storage.config.sectors k
      fun j => placed (h.storage.config.base j) (sectors j).records).length_eq
    have parts := (List.filter_append_perm (fun other => InSector (h.storage.config.base k) other) h.complete).length_eq
    rw [split, List.length_append] at total
    rw [List.length_append, durable.contents.stored k target.inside] at parts
    have whole : h.complete.length = (Imaged.inOrder h.storage.config sectors).length := perm.length_eq
    simp only [begun, outliving, begins, ↓reduceIte]
    rw [place, fewer]
    simp only [Imaged.inOrder] at whole
    have same : (h.complete.filter fun other => ¬ (h.storage.config.base k ≤ other.1 ∧
        other.1 < h.storage.config.base k + SECTOR_SIZE)).length =
        (h.complete.filter fun other => !decide (InSector (h.storage.config.base k) other)).length := by
      congr 1
      apply List.filter_congr
      intro other _
      rw [← decide_not]
      rfl
    omega
  · simp only [begun, outliving, begins, Bool.false_eq_true, ↓reduceIte]
    exact durable.count

/-- An append on working flash succeeds, stores the frame whole and keeps the count. -/
theorem append_target (durable : Durable h sectors) (honest : h.Honest) {record : Record} {k : Nat} {front : List Record}
    (target : Target h.storage sectors record k front) :
    (h.storage.append record.frame).1 = true ∧
      Durable (h.step (.append record)) (Function.update sectors k (.whole (front ++ [record]))) := by
  obtain ⟨answered, stored, counted, complete⟩ := durable.toStored.append target
  refine ⟨answered, stored, ?_⟩
  rw [counted, complete, List.length_append, durable.begun_count honest target]
  rfl

theorem append (durable : Durable h sectors) (honest : h.Honest) (record : Record) :
    (h.storage.append record.frame).1 = true ∧ ∃ sectors', Durable (h.step (.append record)) sectors' := by
  obtain ⟨k, front, target⟩ := durable.position.target durable.contents.config record
  obtain ⟨answered, next⟩ := durable.append_target honest target
  exact ⟨answered, _, next⟩

private theorem recovered {s : FlashLogStorage} {complete acked : List (Nat × Record)} {written : List Record}
    (contents : Contents s complete sectors) (working : s.Working)
    (honest : LogHistory.Honest ⟨s.restart, written, complete, acked⟩) (part : acked ⊆ complete)
    (sub : (complete.map Prod.snd).Sublist written) (ordered : SerialOrder.Ascending (written.map Record.seq)) :
    Durable ⟨s.restart, written, complete, acked⟩ sectors := by
  have same : s.restart.config = s.config ∧ s.restart.flash = s.flash ∧ s.restart.sharedIo = s.sharedIo ∧
      s.restart.initialized = true ∧ s.restart.mutexCreated = true := by
    rw [restart_rebuilds contents.config, rebuildIndexFromFlash_keeps]
    exact ⟨rfl, rfl, rfl, rfl, rfl⟩
  obtain ⟨sameConfig, sameFlash, sameIo, initialized, locked⟩ := same
  have after : Contents s.restart complete sectors := contents.congr sameConfig (by rw [sameFlash])
  have imaged : Imaged s sectors :=
    (after.imaged honest).congr sameConfig.symm fun _ _ _ => by rw [sameFlash]
  have ascending : SerialOrder.Ascending (complete.map fun place => place.2.seq) := by
    have seqs : complete.map (fun place => place.2.seq) = (complete.map Prod.snd).map Record.seq := by
      rw [List.map_map]
      rfl
    rw [seqs]
    exact ordered.sublist (sub.map _)
  obtain ⟨index, restarted, count, position⟩ := contents.restart imaged ascending
  refine ⟨⟨after, initialized, locked, ⟨?_, sameIo.trans working.sharedIo⟩, position, part, sub⟩, ?_⟩
  · change s.restart.flash.Working
    rw [sameFlash]
    exact working.flash
  · change s.restart.validFrameCount = complete.length
    rw [restarted, ← count]
    rfl

theorem cut_outcome (durable : Durable h sectors) (record : Record) (budget : Nat) :
    ∃ v sectors', CutOutcome h sectors record budget v sectors' ∧
      Contents (h.step (.cut record budget)).storage (h.step (.cut record budget)).complete sectors' ∧
      ((h.step (.cut record budget)).Honest →
        SerialOrder.Ascending ((h.step (.cut record budget)).written.map Record.seq) →
        Durable (h.step (.cut record budget)) sectors') := by
  obtain ⟨v, sectors', _, works, restarted, outcome, contents, acked, written⟩ := durable.toStored.cut record budget
  have shape : h.step (.cut record budget) = ⟨v.restart, (h.step (.cut record budget)).written,
      (h.step (.cut record budget)).complete, (h.step (.cut record budget)).acked⟩ := by rw [← restarted]
  refine ⟨v, sectors', outcome, ?_, fun honest ordered => ?_⟩
  · rw [restarted]
    exact contents.congr (restart_config contents.config) (by rw [restart_flash contents.config])
  · rw [shape] at honest ⊢
    exact recovered contents works honest acked written ordered

theorem cut (durable : Durable h sectors) (record : Record) (budget : Nat)
    (honest : (h.step (.cut record budget)).Honest)
    (ordered : SerialOrder.Ascending ((h.step (.cut record budget)).written.map Record.seq)) :
    ∃ sectors', Durable (h.step (.cut record budget)) sectors' := by
  obtain ⟨_, sectors', _, _, durable'⟩ := durable.cut_outcome record budget
  exact ⟨sectors', durable' honest ordered⟩

end Durable

def PowerStep.record : PowerStep → Record
  | .append record => record
  | .cut record _ => record

namespace LogHistory

theorem run_concat (h : LogHistory) (steps : List PowerStep) (last : PowerStep) :
    h.run (steps ++ [last]) = (h.run steps).step last := List.foldl_append

theorem run_appends (h : LogHistory) (records : List Record) :
    (h.run (records.map .append)).storage = h.storage.appendAll records := by
  induction records generalizing h with
  | nil => rfl
  | cons record rest ih => exact ih (h.step (.append record))

theorem written_step (h : LogHistory) (next : PowerStep) : h.written <+: (h.step next).written := by
  cases next <;> exact List.prefix_append _ _

theorem written_run (h : LogHistory) (front rest : List PowerStep) :
    (h.run front).written <+: (h.run (front ++ rest)).written := by
  induction rest using List.reverseRecOn with
  | nil => rw [List.append_nil]
  | append_singleton rest last ih =>
    rw [← List.append_assoc, run_concat]
    exact ih.trans (written_step _ last)

theorem written_sublist (h : LogHistory) (steps : List PowerStep) :
    (h.run steps).written.Sublist (h.written ++ steps.map PowerStep.record) := by
  induction steps using List.reverseRecOn with
  | nil =>
    rw [List.map_nil, List.append_nil]
    exact List.Sublist.refl _
  | append_singleton steps last ih =>
    rw [run_concat, List.map_append, ← List.append_assoc]
    cases last with
    | append record =>
      refine ih.append ?_
      split
      · exact List.Sublist.refl _
      · exact List.nil_sublist _
    | cut record budget =>
      refine ih.append ?_
      split
      · exact List.Sublist.refl _
      · exact List.nil_sublist _

end LogHistory

theorem start_durable {t : FlashLogStorage} (working : t.Working) (represents : Represents t (.fresh t.config))
    (index : t.index = startIndex t.config) : Durable (.start t) fun _ => .whole [] where
  contents :=
    { config := represents.imaged.config
      holding := represents.imaged.holds
      torn := fun k _ byte first => by cases first
      stored := fun k _ => rfl
      area := fun place member => by cases member }
  initialized := represents.initialized
  locked := represents.locked
  working := working
  position := by
    have area := Config.shape represents.imaged.config
    refine .boundary 0 area.2.2.1 ?_
    exact (congrArg Index.writeAddr index).trans (Nat.add_zero _).symm
  count := congrArg Index.validFrameCount index
  acked := List.Subset.refl _
  written := List.Sublist.refl _

/-- Every history of appends and cuts without a phantom frame is durable. -/
theorem run_durable {h : LogHistory} {sectors : Nat → Sector} (durable : Durable h sectors) (steps : List PowerStep)
    (honest : ∀ front, front <+: steps → (h.run front).Honest)
    (ordered : SerialOrder.Ascending ((h.run steps).written.map Record.seq)) :
    ∃ sectors', Durable (h.run steps) sectors' := by
  induction steps using List.reverseRecOn with
  | nil => exact ⟨sectors, durable⟩
  | append_singleton steps last ih =>
    rw [LogHistory.run_concat] at ordered ⊢
    have before := ordered.sublist ((LogHistory.written_step (h.run steps) last).sublist.map _)
    obtain ⟨middle, durableBefore⟩ := ih (fun front part => honest front (part.trans (List.prefix_append _ _))) before
    have honestBefore := honest steps (List.prefix_append _ _)
    have honestAfter := honest (steps ++ [last]) (List.prefix_refl _)
    rw [LogHistory.run_concat] at honestAfter
    cases last with
    | append record => exact (durableBefore.append honestBefore record).2
    | cut record budget => exact durableBefore.cut record budget honestAfter ordered

/-- Plain records, and cuts that come before the length of a frame is written, leave tidy sectors. -/
theorem run_tidy {h : LogHistory} {sectors : Nat → Sector} (durable : Durable h sectors) (tidy : ∀ k, (sectors k).Tidy)
    (steps : List PowerStep) (plain : ∀ step ∈ steps, step.record.Plain)
    (early : ∀ record budget, .cut record budget ∈ steps → budget ≤ 9)
    (ordered : SerialOrder.Ascending ((h.run steps).written.map Record.seq)) :
    ∃ sectors', Durable (h.run steps) sectors' ∧ ∀ k, (sectors' k).Tidy := by
  induction steps using List.reverseRecOn with
  | nil => exact ⟨sectors, durable, tidy⟩
  | append_singleton steps last ih =>
    rw [LogHistory.run_concat] at ordered ⊢
    obtain ⟨before, here⟩ := List.forall_mem_append.mp plain
    have recent := here last List.mem_cons_self
    obtain ⟨middle, durableBefore, tidyBefore⟩ := ih before
      (fun record budget member => early record budget (List.mem_append_left _ member))
      (ordered.sublist ((LogHistory.written_step (h.run steps) last).sublist.map _))
    cases last with
    | append record =>
      obtain ⟨k, front, target⟩ := durableBefore.position.target durableBefore.contents.config record
      have honest : (h.run steps).Honest := fun addr valid => durableBefore.contents.honest tidyBefore valid
      exact ⟨_, (durableBefore.append_target honest target).2, target.tidy tidyBefore recent⟩
    | cut record budget =>
      obtain ⟨_, sectors', outcome, contents, next⟩ := durableBefore.cut_outcome record budget
      have few := early record budget (List.mem_append_right _ List.mem_cons_self)
      have tidyAfter := outcome.tidy tidyBefore recent few
      exact ⟨sectors', next (fun addr valid => contents.honest tidyAfter valid) ordered, tidyAfter⟩

/-- Such a run has no phantom frame at any moment. -/
theorem run_honest {h : LogHistory} {sectors : Nat → Sector} (durable : Durable h sectors) (tidy : ∀ k, (sectors k).Tidy)
    {steps : List PowerStep} (plain : ∀ step ∈ steps, step.record.Plain)
    (early : ∀ record budget, .cut record budget ∈ steps → budget ≤ 9)
    (ordered : SerialOrder.Ascending ((h.run steps).written.map Record.seq)) {front : List PowerStep}
    (part : front <+: steps) : (h.run front).Honest := by
  have passed : (h.run front).written <+: (h.run steps).written := by
    obtain ⟨rest, rfl⟩ := part
    exact LogHistory.written_run h front rest
  obtain ⟨sectors', durable', tidy'⟩ := run_tidy durable tidy front (fun step member => plain step (part.subset member))
    (fun record budget member => early record budget (part.subset member)) (ordered.sublist (passed.sublist.map _))
  exact fun addr valid => durable'.contents.honest tidy' valid

/-- From an erased area such a run with ascending numbers meets what the results about power cuts ask for. -/
theorem plain_run {s : FlashLogStorage} (config : isConfigValid s.config = true) (working : s.Working) (erased : s.Erased)
    (steps : List PowerStep) (plain : ∀ step ∈ steps, step.record.Plain)
    (early : ∀ record budget, .cut record budget ∈ steps → budget ≤ 9)
    (ascending : SerialOrder.Ascending (steps.map fun step => step.record.seq)) :
    SerialOrder.Ascending (((LogHistory.start (s.init true).2).run steps).written.map Record.seq) ∧
      ∀ front, front <+: steps → ((LogHistory.start (s.init true).2).run front).Honest := by
  obtain ⟨t, started, sameConfig, works, represents, _, index⟩ := init_erased config working erased
  rw [← sameConfig] at represents index
  rw [started]
  have ordered : SerialOrder.Ascending (((LogHistory.start t).run steps).written.map Record.seq) := by
    have part := ((LogHistory.start t).written_sublist steps).map Record.seq
    rw [show (LogHistory.start t).written = [] from rfl, List.nil_append, List.map_map] at part
    exact ascending.sublist part
  refine ⟨ordered, fun front part => ?_⟩
  exact run_honest (start_durable works represents index) (fun _ => .whole (by simp)) plain early ordered part

/-- Durability across power cuts: acknowledged frames outside erased sectors are read
back byte for byte, the count is that of the frames programmed whole, at whose addresses
alone the frame check succeeds, and the next append succeeds. -/
theorem log_survives_power_cuts {s : FlashLogStorage} (config : isConfigValid s.config = true) (working : s.Working)
    (erased : s.Erased) (steps : List PowerStep)
    (ordered : SerialOrder.Ascending (((LogHistory.start (s.init true).2).run steps).written.map Record.seq))
    (honest : ∀ front, front <+: steps → ((LogHistory.start (s.init true).2).run front).Honest) :
    let h := (LogHistory.start (s.init true).2).run steps
    (∀ place ∈ h.acked, h.storage.readFrame place.1 LOG_FRAME_MAX_SIZE = some place.2.frame) ∧
      h.storage.validFrameCount = h.complete.length ∧ (h.complete.map Prod.fst).Nodup ∧
      (∀ addr, (h.storage.isValidFrameAt addr).isSome ↔ addr ∈ h.complete.map Prod.fst) ∧
      ∀ record : Record, (h.storage.append record.frame).1 = true := by
  intro h
  obtain ⟨t, started, sameConfig, works, represents, _, index⟩ := init_erased config working erased
  have begin' : (s.init true).2 = t := by rw [started]
  rw [begin'] at ordered honest
  have isH : h = (LogHistory.start t).run steps := by rw [← begin']
  rw [← sameConfig] at represents index
  obtain ⟨sectors, durable⟩ := run_durable (start_durable works represents index) steps honest ordered
  have honestNow := honest steps (List.prefix_refl _)
  rw [← isH] at durable honestNow
  have imaged := durable.imaged honestNow
  have valid {place : Nat × Record} (member : place ∈ h.complete) :
      h.storage.isValidFrameAt place.1 = some (place.2.header, place.2.size) ∧
        h.storage.flash.cellsFrom place.1 place.2.size = place.2.frame := by
    obtain ⟨k, range, here⟩ := List.mem_flatMap.mp (durable.contents.perm.mem_iff.mp member)
    exact imaged.valid (List.mem_range.mp range) here
  refine ⟨?_, durable.count, ?_, ?_, fun record => (durable.append honestNow record).1⟩
  · intro place member
    obtain ⟨found, bytes⟩ := valid (durable.acked member)
    rw [readFrame_valid imaged.config durable.locked found, bytes]
  · have apart : (Imaged.inOrder h.storage.config sectors).Pairwise fun left right => left.1 ≠ right.1 :=
      imaged.inOrder_disjoint.imp fun {left right} before => by
        have positive := left.2.size_pos
        omega
    rw [List.nodup_iff_pairwise_ne, List.pairwise_map]
    exact (durable.contents.perm.pairwise_iff fun {_ _} different => Ne.symm different).mpr apart
  · intro addr
    refine ⟨honestNow addr, ?_⟩
    intro member
    obtain ⟨place, here, rfl⟩ := List.mem_map.mp member
    rw [(valid here).1]
    rfl

theorem first_place {t : FlashLogStorage} (area : t.config = ⟨0, 4096⟩) (write : t.writeAddr = 0) (record : Record) :
    t.appendAddress record.size = 0 := by
  have config : isConfigValid t.config = true := by rw [area]; decide
  have inside : 0 < t.config.sectors := by rw [area]; decide
  have sector := Config.base_inside config inside
  have small := record.size_lt
  have start : t.config.base 0 = 0 := by rw [area]; rfl
  rw [appendAddress_fits config inside (by omega) (by omega) (by omega), write]

/-- A cut during the first append leaves a beginning of the frame; the erase takes one cell operation. -/
theorem first_cut_cells {t : FlashLogStorage} (area : t.config = ⟨0, 4096⟩) (works : t.Working)
    (initialized : t.initialized = true) (locked : t.mutexCreated = true) (write : t.writeAddr = 0) (record : Record) (n : Nat)
    {addr : Nat} (below : addr < 4096) :
    (t.cutAppend (n + 1) record.frame).flash.cells addr = (record.frame.take n).getD addr 0xFF := by
  have config : isConfigValid t.config = true := by rw [area]; decide
  have place : t.appendAddress record.frame.length = 0 := by rw [record.length_frame, first_place area write]
  have small := record.size_lt
  have programmed := append_cells (s := { t with flash := { t.flash with power := some (n + 1) } })
    ⟨works.flash.polls, works.sharedIo⟩ config initialized locked record.frame (by simpa using record.size_pos)
    (by simpa using Nat.le_of_lt small) place (by simpa [area] using Nat.le_of_lt small)
  rw [cutAppend, restart_flash (by exact config)]
  change (append { t with flash := { t.flash with power := some (n + 1) } } record.frame).2.flash.cells addr = _
  rw [programmed]
  simp [begun, isSectorStart, FlashDriver.programCells, FlashDriver.eraseCells, FlashDriver.reaching, below, erased_and]

theorem appendAddress_oneSector (block : List Record) (some' : block ≠ []) (record : Record)
    (room : (frameBytes block).length + record.size ≤ 4096) :
    (((blankStorage ⟨0, 8192⟩).init true).2.appendAll block).appendAddress record.size = (frameBytes block).length := by
  obtain ⟨area, represents, _⟩ := appendAll_oneSector block some' (by omega)
  have used : (oneSector block).used (oneSector block).current = (frameBytes block).length := by
    simp [oneSector, RingLog.used]
  have some'' : 0 < (frameBytes block).length := by
    obtain ⟨first, rest, rfl⟩ := List.exists_cons_of_ne_nil some'
    have positive := first.size_pos
    rw [frameBytes_cons, List.length_append, Record.length_frame]
    omega
  rw [represents.appendAddress record, if_pos ⟨by omega, by omega⟩, used, area]
  simp [oneSector, Config.base]

theorem acked_append {h : LogHistory} {record : Record} (answered : (h.storage.append record.frame).1 = true) :
    (h.step (.append record)).acked =
      outliving (isSectorStart (h.storage.appendAddress record.size)) (h.storage.appendAddress record.size) h.acked ++
        [(h.storage.appendAddress record.size, record)] := by
  simp [LogHistory.step, LogHistory.advance, answered]

theorem acked_cut {h : LogHistory} {record : Record} (middle : isSectorStart (h.storage.appendAddress record.size) = false)
    (budget : Nat) : (h.step (.cut record budget)).acked = h.acked := by
  simp [LogHistory.step, LogHistory.advance, middle, outliving]

def cutSteps : List PowerStep :=
  [.append (sampleRecord 0 5 five_fits), .append (sampleRecord 1 5 five_fits), .cut (sampleRecord 2 5 five_fits) 5,
    .append (sampleRecord 3 5 five_fits)]

theorem cutSteps_plain : ∀ step ∈ cutSteps, step.record.Plain := by decide +kernel

theorem cutSteps_early (record : Record) (budget : Nat) (member : PowerStep.cut record budget ∈ cutSteps) : budget ≤ 9 := by
  simp only [cutSteps, List.mem_cons, reduceCtorEq, PowerStep.cut.injEq, false_or, List.not_mem_nil, or_false] at member
  omega

theorem cutSteps_ascending : SerialOrder.Ascending (cutSteps.map fun step => step.record.seq) :=
  ⟨[0, 1, 2, 3], rfl, by decide, by decide⟩

/-- Every beginning of this run from an erased area of two sectors meets the conditions. -/
theorem cutSteps_run (front : List PowerStep) (part : front <+: cutSteps) :
    SerialOrder.Ascending (((LogHistory.start ((blankStorage ⟨0, 8192⟩).init true).2).run front).written.map Record.seq) ∧
      ∀ first, first <+: front → ((LogHistory.start ((blankStorage ⟨0, 8192⟩).init true).2).run first).Honest :=
  plain_run (by decide) (blankStorage_working _) (blankStorage_erased _) front
    (fun step member => cutSteps_plain step (part.subset member))
    (fun record budget member => cutSteps_early record budget (part.subset member))
    (cutSteps_ascending.sublist (part.sublist.map _))

theorem log_survives_cut_between :
    ∃ first, ((blankStorage ⟨0, 8192⟩).init true).2 = first ∧
      let before := (LogHistory.start first).run (cutSteps.take 3)
      let after := (LogHistory.start first).run cutSteps
      before.acked = [(0, sampleRecord 0 5 five_fits), (23, sampleRecord 1 5 five_fits)] ∧
        (∀ place ∈ before.acked, before.storage.readFrame place.1 LOG_FRAME_MAX_SIZE = some place.2.frame) ∧
        after.acked ≠ [] ∧ ∀ place ∈ after.acked, after.storage.readFrame place.1 LOG_FRAME_MAX_SIZE = some place.2.frame := by
  have config : isConfigValid (blankStorage ⟨0, 8192⟩).config = true := by decide
  have survives (front : List PowerStep) (part : front <+: cutSteps) :=
    log_survives_power_cuts config (blankStorage_working _) (blankStorage_erased _) front (cutSteps_run front part).1
      (cutSteps_run front part).2
  obtain ⟨t, started, area, _, represents, _, _⟩ := init_erased (s := blankStorage ⟨0, 8192⟩) config
    (blankStorage_working _) (blankStorage_erased _)
  have behind := appendAddress_oneSector
  have isT : ((blankStorage ⟨0, 8192⟩).init true).2 = t := congrArg Prod.snd started
  rw [isT] at survives behind
  rw [blankStorage_config] at area represents
  have first : t.appendAddress (sampleRecord 0 5 five_fits).size = 0 := by
    rw [represents.appendAddress, area]
    simp [RingLog.Extends, RingLog.used, RingLog.fresh, Config.next, Config.base, Config.sectors]
  obtain ⟨r0, r1, r2, r3, same⟩ : ∃ r0 r1 r2 r3, r0 = sampleRecord 0 5 five_fits ∧ r1 = sampleRecord 1 5 five_fits ∧
    r2 = sampleRecord 2 5 five_fits ∧ r3 = sampleRecord 3 5 five_fits := ⟨_, _, _, _, rfl, rfl, rfl, rfl⟩
  obtain ⟨zero, one, two, three⟩ := same
  have second := behind [r0] (by simp) r1 (by rw [zero, one]; decide +kernel)
  have third := behind [r0, r1] (by simp) r2 (by rw [zero, one, two]; decide +kernel)
  have lengths : (frameBytes [r0]).length = 23 ∧ (frameBytes [r0, r1]).length = 46 := by
    rw [zero, one]
    decide +kernel
  rw [lengths.1] at second
  rw [lengths.2] at third
  have steps : cutSteps = [.append r0, .append r1, .cut r2 5, .append r3] := by rw [zero, one, two, three]; rfl
  rw [← zero] at first
  rw [steps] at survives ⊢
  rw [← zero, ← one]
  refine ⟨t, isT, ?_⟩
  obtain ⟨h₁, isH₁⟩ : ∃ h₁, (LogHistory.start t).step (.append r0) = h₁ := ⟨_, rfl⟩
  obtain ⟨h₂, isH₂⟩ : ∃ h₂, h₁.step (.append r1) = h₂ := ⟨_, rfl⟩
  have storage₁ : h₁.storage = t.appendAll [r0] := by rw [← isH₁]; rfl
  have storage₂ : h₂.storage = t.appendAll [r0, r1] := by rw [← isH₂, ← isH₁]; rfl
  have acked₁ : h₁.acked = [(0, r0)] := by
    have answered : (t.append r0.frame).1 = true := (survives [] List.nil_prefix).2.2.2.2 r0
    rw [← isH₁, acked_append answered]
    simp [LogHistory.start, first, outliving]
  have acked₂ : h₂.acked = [(0, r0), (23, r1)] := by
    have answered := (survives [.append r0] ⟨_, rfl⟩).2.2.2.2 r1
    rw [show (LogHistory.start t).run [.append r0] = h₁ from isH₁] at answered
    rw [← isH₂, acked_append answered, acked₁, storage₁, second]
    rfl
  have acked₃ : (h₂.step (.cut r2 5)).acked = [(0, r0), (23, r1)] := by
    rw [acked_cut (by rw [storage₂, third]; rfl), acked₂]
  have before : (LogHistory.start t).run [.append r0, .append r1, .cut r2 5] = h₂.step (.cut r2 5) := by
    rw [← isH₂, ← isH₁]
    rfl
  have durable := survives [.append r0, .append r1, .cut r2 5] ⟨_, rfl⟩
  have after := survives _ List.prefix_rfl
  have answered := durable.2.2.2.2 r3
  have last : (LogHistory.start t).run [.append r0, .append r1, .cut r2 5, .append r3] =
      (h₂.step (.cut r2 5)).step (.append r3) := by
    rw [← before]
    rfl
  rw [before] at durable answered
  rw [last] at after
  simp only [List.take_succ_cons, List.take_zero, before, last]
  refine ⟨acked₃, durable.1, ?_, after.1⟩
  rw [acked_append answered]
  simp

end PicoWLogger
