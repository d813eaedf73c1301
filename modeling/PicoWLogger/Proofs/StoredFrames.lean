import PicoWLogger.Proofs.CutContents

/-! What appends and cuts store, whatever the payloads hold: the frames programmed whole, each in
its sector, and behind the last of them what a cut left. -/

namespace PicoWLogger
open FlashLogStorage

theorem advance_powered (h : LogHistory) {power : Option Nat} (record : Record) (answer : Bool) (after : FlashLogStorage)
    (powered : ¬ (isSectorStart (h.storage.appendAddress record.size) = true ∧ power = some 0)) :
    let addr := h.storage.appendAddress record.size
    let whole := after.flash.cellsFrom addr record.size = record.frame
    h.advance power record answer after =
      { storage := after
        written := h.written ++ if whole then [record] else []
        complete := outliving (isSectorStart addr) addr h.complete ++ if whole then [(addr, record)] else []
        acked := outliving (isSectorStart addr) addr h.acked ++ if answer then [(addr, record)] else [] } := by
  simp only [LogHistory.advance, powered, decide_false, Bool.not_false, Bool.and_true, not_false_eq_true, true_and]

theorem advance_unpowered (h : LogHistory) {power : Option Nat} (record : Record) (after : FlashLogStorage)
    (cut : isSectorStart (h.storage.appendAddress record.size) = true ∧ power = some 0) :
    h.advance power record false after = { h with storage := after } := by
  simp [LogHistory.advance, cut, outliving]

/-- What holds of the log between any two steps of a run, but for what its index counts. -/
structure Stored (h : LogHistory) (sectors : Nat → Sector) : Prop where
  contents : Contents h.storage h.complete sectors
  initialized : h.storage.initialized = true
  locked : h.storage.mutexCreated = true
  working : h.storage.Working
  position : WritePosition h.storage sectors
  acked : h.acked ⊆ h.complete
  written : (h.complete.map Prod.snd).Sublist h.written

namespace Stored
variable {h : LogHistory} {sectors : Nat → Sector}

theorem acked_advance {kept : Bool} {addr : Nat} {acked complete new : List (Nat × Record)}
    {answer : Bool} {place : Nat × Record} (part : acked ⊆ complete) (stored : answer = true → place ∈ new) :
    (outliving kept addr acked ++ if answer then [place] else []) ⊆ outliving kept addr complete ++ new := by
  intro other member
  rcases List.mem_append.mp member with old | latest
  · exact List.mem_append_left _ (outliving_mono part old)
  · cases answer with
    | false => cases latest
    | true =>
      rw [List.mem_singleton.mp latest]
      exact List.mem_append_right _ (stored rfl)

theorem written_advance {kept : Bool} {addr : Nat} {complete : List (Nat × Record)} {written : List Record}
    (part : (complete.map Prod.snd).Sublist written) (whole : Prop) [Decidable whole] (record : Record) :
    ((outliving kept addr complete ++ if whole then [(addr, record)] else []).map Prod.snd).Sublist
      (written ++ if whole then [record] else []) := by
  rw [List.map_append]
  apply ((outliving_sublist kept addr complete).map Prod.snd |>.trans part).append
  split
  · exact List.Sublist.refl _
  · exact List.Sublist.refl _

private theorem append_true (stored : Stored h sectors) {record : Record} {k : Nat} {front : List Record}
    (target : Target h.storage sectors record k front) :
    ∃ requests, h.storage.append record.frame =
        (true, (h.storage.written (h.storage.appendAddress record.size) record.frame requests).updateIndexAfterAppend
          (h.storage.appendAddress record.size) record.header) ∧
      Holding (h.storage.append record.frame).2.flash h.storage.config
        (Function.update (fun j => (sectors j).bytes) k (frameBytes front ++ record.frame)) ∧
      (h.storage.append record.frame).2.flash.cellsFrom (h.storage.appendAddress record.size) record.size =
        record.frame := by
  have config := stored.contents.config
  have power := stored.working.flash.power
  have sector := Config.base_inside config target.inside
  have place := target.place
  have room := target.room
  have length := record.length_frame
  have small := record.size_lt
  have responsive := stored.working.responsive
  obtain ⟨part, _, steady, _, holding⟩ := append_programs responsive config stored.initialized stored.locked
    stored.contents.holding target (by simp [power])
  rw [steady power] at holding
  have here := holding k target.inside
  have split : frameBytes front ++ record.frame = frameBytes front ++ record.frame ++ [] := (List.append_nil _).symm
  rw [Function.update_self, split] at here
  have cells := here.cellsFrom
  rw [← place, length] at cells
  obtain ⟨requests, result⟩ := append_responsive responsive config stored.initialized stored.locked record.frame
    (by rw [length]; exact record.size_pos) (by omega) (by rw [length]) (by omega)
  have programmed := append_cells responsive config stored.initialized stored.locked record.frame
    (by rw [length]; exact record.size_pos) (by omega) (by rw [length]) (by omega)
  have sameConfig : (h.storage.written (h.storage.appendAddress record.size) record.frame requests).config =
      h.storage.config := by
    rw [written_keeps]
    rfl
  have valid : (h.storage.written (h.storage.appendAddress record.size) record.frame requests).isValidFrameAt
      (h.storage.appendAddress record.size) = some (record.header, record.size) := by
    rw [isValidFrameAt_iff (by rwa [sameConfig]), sameConfig]
    refine ⟨by omega, by omega, record, rfl, rfl, ?_⟩
    exact (FlashDriver.cellsFrom_congr fun a _ _ => (congrFun programmed a).symm).trans cells
  rw [valid] at result
  exact ⟨requests, result, holding, cells⟩

theorem append (stored : Stored h sectors) {record : Record} {k : Nat} {front : List Record}
    (target : Target h.storage sectors record k front) :
    (h.storage.append record.frame).1 = true ∧
      Stored (h.step (.append record)) (Function.update sectors k (.whole (front ++ [record]))) ∧
      (h.step (.append record)).storage.validFrameCount =
        (h.storage.begun (h.storage.appendAddress record.size)).validFrameCount + 1 ∧
      (h.step (.append record)).complete =
        outliving (isSectorStart (h.storage.appendAddress record.size)) (h.storage.appendAddress record.size) h.complete ++
          [(h.storage.appendAddress record.size, record)] := by
  have config := stored.contents.config
  obtain ⟨requests, result, holding, cells⟩ := stored.append_true target
  have answered : (h.storage.append record.frame).1 = true := by rw [result]
  obtain ⟨t, isT⟩ : ∃ t, h.storage.append record.frame = (true, t) := ⟨_, result⟩
  have shape := result
  rw [isT] at holding cells shape
  have shape' := (Prod.mk.inj shape).2
  have keeps : t.config = h.storage.config ∧ t.initialized = h.storage.initialized ∧
      t.mutexCreated = h.storage.mutexCreated ∧ t.sharedIo = h.storage.sharedIo := by
    rw [shape', updateIndex_keeps, written_keeps]
    exact ⟨rfl, rfl, rfl, rfl⟩
  obtain ⟨sameConfig, sameInit, sameMutex, sameIo⟩ := keeps
  have contents := stores_contents stored.contents target sameConfig List.prefix_rfl holding
  have step : h.step (.append record) = h.advance none record true t := by simp only [LogHistory.step, isT]
  have settles : settled t.flash (h.storage.config.base k) front record record.frame = .whole (front ++ [record]) := by
    rw [settled, ← target.place, if_pos cells]
  rw [settles] at contents
  refine ⟨answered, ?_, ?_, ?_⟩
  · rw [step, advance_powered h record true t (by simp)]
    constructor
    · exact contents
    · exact sameInit.trans stored.initialized
    · exact sameMutex.trans stored.locked
    · have works := written_working stored.working (h.storage.appendAddress record.size) record.frame requests
      change t.Working
      rw [shape', updateIndex_keeps]
      exact ⟨works.flash, works.sharedIo⟩
    · have write : t.writeAddr = h.storage.wrapAddress (h.storage.appendAddress record.size + record.size) := by
        rw [shape', updateIndexAfterAppend, ← record.length_frame]
        split <;> rfl
      exact target.position config sameConfig rfl write
    · exact acked_advance stored.acked fun _ => by rw [if_pos cells]; exact List.mem_singleton.mpr rfl
    · exact written_advance stored.written _ record
  · rw [step]
    change t.validFrameCount = _
    rw [shape', updateIndexAfterAppend]
    split
    next empty => exact congrArg (· + 1) (show 0 = _ from empty.symm)
    next => rfl
  · rw [step, advance_powered h record true t (by simp)]
    simp only [cells, ↓reduceIte]

end Stored

/-- How a cut during the append of `record` leaves the sectors: as they were, or with a beginning of the
frame at its place. -/
inductive CutOutcome (h : LogHistory) (sectors : Nat → Sector) (record : Record) (budget : Nat) (v : FlashLogStorage)
    (sectors' : Nat → Sector) : Prop where
  | unpowered (cut : isSectorStart (h.storage.appendAddress record.size) = true ∧ budget = 0) (same : sectors' = sectors)
  | programmed {k : Nat} {front : List Record} {part : List UInt8}
      (powered : ¬ (isSectorStart (h.storage.appendAddress record.size) = true ∧ budget = 0))
      (target : Target h.storage sectors record k front) (isPrefix : part <+: record.frame) (short : part.length ≤ budget)
      (same : sectors' = Function.update sectors k (settled v.flash (h.storage.config.base k) front record part))

/-- The flash that a cut leaves to the restart. -/
theorem Stored.cut {h : LogHistory} {sectors : Nat → Sector} (stored : Stored h sectors) (record : Record) (budget : Nat) :
    ∃ v sectors', v.config = h.storage.config ∧ v.Working ∧ (h.step (.cut record budget)).storage = v.restart ∧
      CutOutcome h sectors record budget v sectors' ∧ Contents v (h.step (.cut record budget)).complete sectors' ∧
      (h.step (.cut record budget)).acked ⊆ (h.step (.cut record budget)).complete ∧
      ((h.step (.cut record budget)).complete.map Prod.snd).Sublist (h.step (.cut record budget)).written := by
  have config := stored.contents.config
  obtain ⟨k, front, target⟩ := stored.position.target config record
  obtain ⟨u, isU⟩ : ∃ u, ({ h.storage with flash := { h.storage.flash with power := some budget } } :
      FlashLogStorage) = u := ⟨_, rfl⟩
  obtain ⟨broken, isBroken⟩ : ∃ broken, (u.append record.frame).2 = broken := ⟨_, rfl⟩
  obtain ⟨v, isV⟩ : ∃ v, ({ h.storage with flash := { h.storage.flash with cells := broken.flash.cells } } :
      FlashLogStorage) = v := ⟨_, rfl⟩
  have responsive : u.Responsive := by
    rw [← isU]
    exact ⟨stored.working.flash.polls, stored.working.sharedIo⟩
  have aimed : Target u sectors record k front := by
    rw [← isU]
    exact ⟨target.inside, target.place, target.room, target.begins, target.behind⟩
  have limited : u.flash.power = some budget ∧ u.config = h.storage.config ∧ u.initialized = true ∧
      u.mutexCreated = true ∧ u.flash.cells = h.storage.flash.cells ∧
      u.appendAddress record.size = h.storage.appendAddress record.size := by
    rw [← isU]
    exact ⟨rfl, rfl, stored.initialized, stored.locked, rfl, rfl⟩
  obtain ⟨power, area, initialized, locked, cells, place⟩ := limited
  have config' : isConfigValid u.config = true := by rwa [area]
  have sameConfig : v.config = h.storage.config := by rw [← isV]
  have sameCells : v.flash.cells = broken.flash.cells := by rw [← isV]
  have works : v.Working := by
    rw [← isV]
    exact ⟨⟨stored.working.flash.polls, stored.working.flash.power⟩, stored.working.sharedIo⟩
  have restarted : v.restart.flash = v.flash := restart_flash (by rwa [sameConfig])
  have step : h.step (.cut record budget) = h.advance (some budget) record false v.restart := by
    simp only [LogHistory.step, cutAppend, isU, isBroken, isV]
  rw [step]
  by_cases unpowered : isSectorStart (h.storage.appendAddress record.size) = true ∧ some budget = some 0
  · rw [advance_unpowered h record v.restart unpowered]
    have unchanged := append_unpowered responsive config' initialized locked aimed (by rwa [place, power])
    rw [isBroken, cells] at unchanged
    have contents : Contents v h.complete sectors := stored.contents.congr sameConfig (sameCells.trans unchanged)
    have never : budget = 0 := Option.some.inj unpowered.2
    exact ⟨v, sectors, sameConfig, works, rfl, .unpowered ⟨unpowered.1, never⟩ rfl, contents, stored.acked, stored.written⟩
  · rw [advance_powered h record false v.restart unpowered]
    have holds : Holding u.flash u.config fun j => (sectors j).bytes := by
      rw [area]
      exact fun j inside => (stored.contents.holding j inside).congr fun a _ _ => by rw [cells]
    obtain ⟨part, isPrefix, _, limited, holding⟩ := append_programs responsive config' initialized locked holds aimed
      (by rwa [place, power])
    rw [isBroken, area] at holding
    have held : Holding v.flash h.storage.config
        (Function.update (fun j => (sectors j).bytes) k (frameBytes front ++ part)) :=
      fun j inside => (holding j inside).congr fun a _ _ => by rw [sameCells]
    have contents := stores_contents stored.contents target sameConfig isPrefix held
    rw [← restarted] at contents
    have powered : ¬ (isSectorStart (h.storage.appendAddress record.size) = true ∧ budget = 0) := by
      rintro ⟨begins, never⟩
      exact unpowered ⟨begins, congrArg some never⟩
    exact ⟨v, _, sameConfig, works, rfl, .programmed powered target isPrefix (limited budget power) (by rw [restarted]),
      contents,
      acked_advance stored.acked Bool.noConfusion, written_advance stored.written _ record⟩

section Plain

namespace Record

def Plain (record : Record) : Prop := 0xA5 ∉ record.frame.tail

instance (record : Record) : Decidable record.Plain := inferInstanceAs (Decidable (0xA5 ∉ record.frame.tail))

theorem frame_length_byte (record : Record) : record.frame[9]? = some record.val.length := rfl

end Record

/-- Plain records, and remains in which no frame begins and the length is not written. -/
structure Sector.Tidy (sector : Sector) : Prop where
  plain : ∀ record ∈ sector.records, record.Plain
  remains : 0xA5 ∉ sector.torn.tail
  short : sector.torn.length ≤ 9
  room : sector.torn ≠ [] → (frameBytes sector.records).length + 18 ≤ 4096

/-- Among plain records the first byte of a frame is where one begins. -/
theorem placed_start (addr : Nat) {i : Nat} {records : List Record} (plain : ∀ record ∈ records, record.Plain)
    (here : (frameBytes records)[i]? = some 0xA5) : ∃ place ∈ placed addr records, place.1 = addr + i := by
  induction records generalizing addr i with
  | nil => cases here
  | cons record rest ih =>
    obtain ⟨first, others⟩ := List.forall_mem_cons.mp plain
    rw [frameBytes_cons] at here
    by_cases inside : i < record.frame.length
    · rw [List.getElem?_append_left inside] at here
      cases i with
      | zero => exact ⟨_, List.mem_cons_self, rfl⟩
      | succ i =>
        rw [← List.getElem?_tail] at here
        exact absurd (List.mem_of_getElem? here) first
    · rw [List.getElem?_append_right (not_lt.mp inside)] at here
      obtain ⟨place, member, start⟩ := ih (addr + record.size) others here
      rw [record.length_frame] at inside start
      exact ⟨place, List.mem_cons_of_mem _ member, by omega⟩

/-- Over tidy sectors no address but the start of a frame programmed whole passes the frame check. -/
theorem Contents.honest {s : FlashLogStorage} {complete : List (Nat × Record)} {sectors : Nat → Sector}
    (contents : Contents s complete sectors) (tidy : ∀ k, (sectors k).Tidy) {addr : Nat}
    (valid : (s.isValidFrameAt addr).isSome) : addr ∈ complete.map Prod.fst := by
  have config := contents.config
  obtain ⟨⟨header, size⟩, isValid⟩ := Option.isSome_iff_exists.mp valid
  obtain ⟨above, below, record, _, sized, cells⟩ := (isValidFrameAt_iff config _ _ _).mp isValid
  have byte {i : Nat} {b : UInt8} (here : record.frame[i]? = some b) : s.flash.cells (addr + i) = b := by
    rw [← cells] at here
    obtain ⟨inside, same⟩ := List.getElem?_eq_some_iff.mp here
    rwa [FlashDriver.getElem_cellsFrom] at same
  have head : s.flash.cells addr = 0xA5 := byte record.frame_head
  have config' := Config.shape config
  have positive := record.size_pos
  obtain ⟨k, o, inside, small, rfl⟩ : ∃ k o, k < s.config.sectors ∧ o < 4096 ∧ addr = s.config.base k + o := by
    refine ⟨(addr - s.config.startAddr) / 4096, (addr - s.config.startAddr) % 4096, ?_, Nat.mod_lt _ (by decide), ?_⟩
    · omega
    · simp only [Config.base]
      omega
  have holds : Holds s.flash (s.config.base k) (sectors k).bytes := contents.holding k inside
  obtain ⟨plain, remains, short, room⟩ := tidy k
  rw [holds.cells o small, Sector.bytes] at head
  by_cases stored : o < (frameBytes (sectors k).records).length
  · rw [List.getD_append _ _ _ _ stored, List.getD_eq_getElem _ _ stored] at head
    obtain ⟨place, member, start⟩ := placed_start (s.config.base k) plain
      (List.getElem?_eq_some_iff.mpr ⟨stored, head⟩)
    rw [← start]
    exact List.mem_map_of_mem (contents.perm.mem_iff.mpr (List.mem_flatMap.mpr ⟨k, List.mem_range.mpr inside, member⟩))
  · exfalso
    rw [List.getD_append_right _ _ _ _ (not_lt.mp stored)] at head
    obtain ⟨j, isJ⟩ : ∃ j, o - (frameBytes (sectors k).records).length = j := ⟨_, rfl⟩
    rw [isJ] at head
    have within : j < (sectors k).torn.length := by
      by_contra beyond
      rw [List.getD_eq_default _ _ (not_lt.mp beyond)] at head
      exact absurd head (by decide)
    rw [List.getD_eq_getElem _ _ within] at head
    cases j with
    | zero =>
      have some' : (sectors k).torn ≠ [] := List.ne_nil_of_length_pos within
      have space := room some'
      have length := byte record.frame_length_byte
      rw [Nat.add_assoc, holds.cells (o + 9) (by omega), Sector.bytes, List.getD_append_right _ _ _ _ (by omega),
        List.getD_eq_default _ _ (by omega)] at length
      have fits := record.property
      rw [← length] at fits
      exact absurd fits (by decide)
    | succ j =>
      have later : (sectors k).torn.tail[j]? = some 0xA5 := by
        rw [List.getElem?_tail]
        exact List.getElem?_eq_some_iff.mpr ⟨within, head⟩
      exact remains (List.mem_of_getElem? later)

theorem Sector.Tidy.whole {records : List Record} (plain : ∀ record ∈ records, record.Plain) :
    (Sector.whole records).Tidy where
  plain := plain
  remains := by simp [Sector.whole]
  short := Nat.zero_le 9
  room := fun some' => absurd rfl some'

section Steps
variable {h : LogHistory} {sectors : Nat → Sector} {record : Record}

theorem Target.front_plain {s : FlashLogStorage} {k : Nat} {front : List Record} (target : Target s sectors record k front)
    (tidy : (sectors k).Tidy) : ∀ record ∈ front, record.Plain := by
  by_cases none' : front = []
  · simp [none']
  · rw [← (target.behind none').1]
    exact tidy.plain

theorem Target.tidy {k : Nat} {front : List Record} (target : Target h.storage sectors record k front)
    (tidy : ∀ j, (sectors j).Tidy) (plain : record.Plain) (j : Nat) :
    (Function.update sectors k (.whole (front ++ [record])) j).Tidy := by
  by_cases same : j = k
  · subst same
    rw [Function.update_self]
    refine .whole (List.forall_mem_append.mpr ⟨?_, List.forall_mem_singleton.mpr plain⟩)
    exact target.front_plain (tidy j)
  · rw [Function.update_of_ne same]
    exact tidy j

/-- A cut that comes before the length is written leaves tidy remains. -/
theorem CutOutcome.tidy {budget : Nat} {v : FlashLogStorage} {sectors' : Nat → Sector}
    (outcome : CutOutcome h sectors record budget v sectors') (tidy : ∀ j, (sectors j).Tidy) (plain : record.Plain)
    (early : budget ≤ 9) (j : Nat) : (sectors' j).Tidy := by
  cases outcome with
  | unpowered _ same =>
    rw [same]
    exact tidy j
  | @programmed k front part _ target isPrefix short same =>
    rw [same]
    by_cases here : j = k
    · subst here
      have before := target.front_plain (tidy j)
      rw [Function.update_self, settled]
      split
      · exact .whole (List.forall_mem_append.mpr ⟨before, List.forall_mem_singleton.mpr plain⟩)
      · refine ⟨before, fun inside => plain ?_, short.trans early, fun _ => ?_⟩
        · exact isPrefix.sublist.tail.subset inside
        · have room := target.room
          have least : 18 ≤ record.size := by
            simp only [Record.size, LOG_FRAME_MAGIC_SIZE, LOG_FRAME_HEADER_SIZE, LOG_FRAME_CRC_SIZE]
            omega
          dsimp only
          omega
    · rw [Function.update_of_ne here]
      exact tidy j

end Steps

end Plain

end PicoWLogger
