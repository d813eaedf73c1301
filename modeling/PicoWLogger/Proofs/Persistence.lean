import PicoWLogger.Proofs.WholeFrames

/-! What the ring of the UART decides about the flash. The logger task appends an event only when its
frame found room, so the log is that of the events that did, whatever else happened on the line. -/

namespace PicoWLogger
open FlashLogStorage

def TrafficAction.received : TrafficAction → Option Record
  | .receive record => some record
  | _ => none

namespace Traffic

/-- The event whose frame a step hands to the UART, and whether the ring has room for it. -/
def offered (s : Traffic) : TrafficAction → Option (Record × Bool)
  | .sendFrame =>
    match s.logger with
    | .sending record => some (record, decide (record.size ≤ s.uart.txFreeSpaceLocked.toNat))
    | _ => none
  | _ => none

/-- The events offered to the UART in these steps, in order. -/
def offers (past : List (Traffic × TrafficAction)) : List (Record × Bool) := past.filterMap fun step => step.1.offered step.2

def fitting (offers : List (Record × Bool)) : List Record := (offers.filter Prod.snd).map Prod.fst

def unoffered (s : Traffic) : List Record :=
  match s.logger with
  | .sending record => [record]
  | _ => []

/-- The log once the event under way is appended. -/
def appended (s : Traffic) : FlashLogStorage :=
  match s.logger with
  | .appending record => (s.storage.append record.frame).2
  | _ => s.storage

/-- After these steps the log holds the appends of the events that found room. -/
structure Persisted (storage : FlashLogStorage) (s : Traffic) (past : List (Traffic × TrafficAction)) : Prop where
  storage : s.appended = storage.appendAll (fitting (offers past))
  received : (past.filterMap fun step => step.2.received) = (offers past).map Prod.fst ++ s.unoffered

variable {s t : Traffic} {action : TrafficAction} {storage : FlashLogStorage} {past : List (Traffic × TrafficAction)}

theorem offers_concat (past : List (Traffic × TrafficAction)) (s : Traffic) (action : TrafficAction) :
    offers (past ++ [(s, action)]) = offers past ++ (s.offered action).toList := by
  rw [offers, List.filterMap_append, ← offers]
  cases offer : s.offered action <;> simp [offer]

theorem fitting_concat (offers : List (Record × Bool)) (record : Record) (room : Bool) :
    fitting (offers ++ [(record, room)]) = fitting offers ++ if room then [record] else [] := by
  rw [fitting, List.filter_append, List.map_append, ← fitting]
  cases room <;> rfl

/-- A step that neither receives nor offers an event, and leaves the log alone. -/
theorem Persisted.aside (persisted : Persisted storage s past) (silent : s.offered action = none)
    (noEvent : action.received = none) (same : t.appended = s.appended) (still : t.unoffered = s.unoffered) :
    Persisted storage t (past ++ [(s, action)]) := by
  obtain ⟨isStorage, received⟩ := persisted
  refine ⟨?_, ?_⟩
  · rw [offers_concat, silent, Option.toList_none, List.append_nil, same, isStorage]
  · rw [offers_concat, silent, Option.toList_none, List.append_nil, still, List.filterMap_append, received]
    simp [noEvent]

theorem Persisted.sendFrame (persisted : Persisted storage s past) (taken : s.step .sendFrame = some t) :
    Persisted storage t (past ++ [(s, .sendFrame)]) := by
  obtain ⟨isStorage, received⟩ := persisted
  rw [Traffic.step] at taken
  split at taken
  next record turn sending =>
    have fits := writeFrame_iff s.uart record.buffer
    rw [Record.buffer, record.length_frame] at fits
    have offer : s.offered .sendFrame = some (record, decide (record.size ≤ s.uart.txFreeSpaceLocked.toNat)) := by
      rw [offered, sending]
    have held : s.appended = s.storage := by rw [Traffic.appended, sending]
    have due : s.unoffered = [record] := by rw [unoffered, sending]
    rw [held] at isStorage
    rw [due] at received
    have left : t.unoffered = [] ∧
        t.appended = if record.size ≤ s.uart.txFreeSpaceLocked.toNat then (s.storage.append record.frame).2 else s.storage := by
      dsimp only at taken
      split at taken <;> cases taken
      next accepted => exact ⟨rfl, (if_pos (fits.mp accepted).2).symm⟩
      next refused => exact ⟨rfl, (if_neg fun room => refused (fits.mpr ⟨record.size_pos, room⟩)).symm⟩
    refine ⟨?_, ?_⟩
    · rw [offers_concat, offer, Option.toList_some, fitting_concat, left.2]
      by_cases room : record.size ≤ s.uart.txFreeSpaceLocked.toNat
      · rw [if_pos room, decide_eq_true room, if_pos rfl, appendAll_concat, ← isStorage]
      · rw [if_neg room, decide_eq_false room, if_neg Bool.false_ne_true, List.append_nil, isStorage]
    · rw [offers_concat, offer, Option.toList_some, left.1, List.filterMap_append, received, List.map_append]
      rfl
  next => cases taken

theorem Persisted.step (persisted : Persisted storage s past) (taken : s.step action = some t) :
    Persisted storage t (past ++ [(s, action)]) := by
  cases action with
  | sendFramesOldestFirst | sendLatestFrames _ =>
    rw [Traffic.step] at taken
    split at taken <;> cases taken
    exact persisted.aside rfl rfl rfl rfl
  | writeByteBlocking =>
    rw [Traffic.step] at taken
    split at taken
    · cases taken
      exact persisted.aside rfl rfl rfl rfl
    · dsimp only at taken
      split at taken <;> cases taken <;> exact persisted.aside rfl rfl rfl rfl
    · cases taken
  | receive record =>
    rw [Traffic.step] at taken
    split at taken <;> cases taken
    next turn waiting =>
      obtain ⟨isStorage, received⟩ := persisted
      have held : s.appended = s.storage := by rw [Traffic.appended, waiting]
      have done : s.unoffered = [] := by rw [unoffered, waiting]
      rw [held] at isStorage
      rw [done, List.append_nil] at received
      refine ⟨?_, ?_⟩
      · rw [offers_concat]
        exact isStorage.trans (congrArg _ (congrArg fitting (List.append_nil _).symm))
      · rw [offers_concat, List.filterMap_append, received]
        exact congrArg (· ++ [record]) (congrArg (List.map Prod.fst) (List.append_nil _).symm)
  | sendFrame => exact persisted.sendFrame taken
  | append =>
    rw [Traffic.step] at taken
    split at taken <;> cases taken
    next record turn appending dump =>
      refine persisted.aside rfl rfl ?_ ?_
      · rw [Traffic.appended, Traffic.appended, appending]
      · rw [unoffered, unoffered, appending]
  | count =>
    rw [Traffic.step] at taken
    split at taken <;> cases taken
    all_goals
      next turn logger =>
        refine persisted.aside rfl rfl ?_ ?_
        · rw [Traffic.appended, Traffic.appended, logger]
        · rw [unoffered, unoffered, logger]
  | switch task =>
    rw [Traffic.step] at taken
    split at taken <;> cases taken
    exact persisted.aside rfl rfl rfl rfl
  | hardware action =>
    obtain ⟨uart, _, rfl⟩ := Option.map_eq_some_iff.mp taken
    exact persisted.aside rfl rfl rfl rfl

theorem run_persisted {uart : UartDma} {actions : List TrafficAction}
    (ran : Machine.run Traffic.step (start uart storage) actions = some s) :
    Persisted storage s (Machine.steps Traffic.step (start uart storage) actions) :=
  Machine.run_invariant (Persisted storage) ⟨rfl, rfl⟩ .step ran

/-- The logger task has done with the events it received, and the log holds the appends of those whose frames
found room: two runs in which the same events come and the same of them find room leave the same flash. -/
theorem flash_follows_room (storage : FlashLogStorage) (uart uart' : UartDma) (actions actions' : List TrafficAction)
    (ran : Machine.run step (start uart storage) actions = some s)
    (ran' : Machine.run step (start uart' storage) actions' = some t) (idle : s.logger = .waiting)
    (idle' : t.logger = .waiting) :
    let past := Machine.steps step (start uart storage) actions
    let past' := Machine.steps step (start uart' storage) actions'
    (offers past).map Prod.fst = actions.filterMap TrafficAction.received ∧
      s.storage = storage.appendAll (fitting (offers past)) ∧
      (offers past = offers past' → s.storage.flash.cells = t.storage.flash.cells) := by
  intro past past'
  obtain ⟨isStorage, received⟩ := run_persisted ran
  obtain ⟨isStorage', _⟩ := run_persisted ran'
  have held : s.appended = s.storage := by rw [Traffic.appended, idle]
  have held' : t.appended = t.storage := by rw [Traffic.appended, idle']
  have done : s.unoffered = [] := by rw [unoffered, idle]
  rw [held] at isStorage
  rw [held'] at isStorage'
  rw [done, List.append_nil] at received
  refine ⟨?_, isStorage, fun same => ?_⟩
  · have taken : actions.filterMap TrafficAction.received = past.filterMap fun step => step.2.received := by
      rw [← Machine.steps_actions ran, List.filterMap_map]
      rfl
    rw [taken]
    exact received.symm
  · rw [isStorage, isStorage', same]

def storing (record : Record) : List TrafficAction := [.switch .logger, .receive record, .sendFrame, .append, .count]

def dropping (record : Record) : List TrafficAction := [.switch .logger, .receive record, .sendFrame, .count]

private theorem offer_steps (uart : UartDma) (storage : FlashLogStorage) (enabled : uart.interrupts = true) (record : Record) :
    ∃ sending : Traffic, (sending.uart = uart ∧ sending.storage = storage ∧ sending.dump = .idle ∧ sending.turn = .logger ∧
        sending.logger = .sending record) ∧
      ∀ rest : List TrafficAction,
        Machine.run step (start uart storage) (.switch .logger :: .receive record :: rest) = Machine.run step sending rest ∧
        offers (Machine.steps step (start uart storage) (.switch .logger :: .receive record :: rest)) =
          offers (Machine.steps step sending rest) := by
  have switched : (start uart storage).step (.switch .logger) = some { start uart storage with turn := .logger } := by
    simp [step, start, enabled, runnable]
  refine ⟨{ start uart storage with turn := .logger, logger := .sending record }, ⟨rfl, rfl, rfl, rfl, rfl⟩, fun rest => ?_⟩
  constructor
  · rw [Machine.run, switched]
    rfl
  · rw [Machine.steps, switched]
    rfl

theorem run_storing (uart : UartDma) (storage : FlashLogStorage) (record : Record) (enabled : uart.interrupts = true)
    (room : record.size ≤ uart.txFreeSpaceLocked.toNat) :
    ∃ s, Machine.run step (start uart storage) (storing record) = some s ∧ s.logger = .waiting ∧
      s.storage = (storage.append record.frame).2 ∧
      offers (Machine.steps step (start uart storage) (storing record)) = [(record, true)] := by
  obtain ⟨sending, ⟨isUart, isStorage, dump, turn, logger⟩, begun⟩ := offer_steps uart storage enabled record
  have put : (uart.writeFrame record.buffer).1 = true := by
    rw [writeFrame_iff, Record.buffer, record.length_frame]
    exact ⟨record.size_pos, room⟩
  have ran : Machine.run step sending [.sendFrame, .append, .count] = some { sending with
      uart := (uart.writeFrame record.buffer).2.restoreInterrupts true
      storage := (storage.append record.frame).2, logger := .waiting, accepted := sending.accepted ++ record.frame } := by
    simp [Machine.run, step, isUart, isStorage, dump, turn, logger, put]
  rw [storing, (begun _).1, (begun _).2]
  refine ⟨_, ran, rfl, rfl, ?_⟩
  simp [Machine.steps, offers, offered, step, isUart, dump, turn, logger, put, room]

theorem run_dropping (uart : UartDma) (storage : FlashLogStorage) (record : Record) (enabled : uart.interrupts = true)
    (full : uart.txFreeSpaceLocked.toNat < record.size) :
    ∃ s, Machine.run step (start uart storage) (dropping record) = some s ∧ s.logger = .waiting ∧ s.storage = storage := by
  obtain ⟨sending, ⟨isUart, isStorage, _, turn, logger⟩, begun⟩ := offer_steps uart storage enabled record
  have refused : (uart.writeFrame record.buffer).1 = false := by
    rw [← Bool.not_eq_true, writeFrame_iff, Record.buffer, record.length_frame]
    exact fun fits => Nat.lt_irrefl _ (Nat.lt_of_lt_of_le full fits.2)
  have ran : Machine.run step sending [.sendFrame, .count] = some { sending with
      uart := (uart.writeFrame record.buffer).2.restoreInterrupts true, logger := .waiting } := by
    simp [Machine.run, step, isUart, turn, logger, refused]
  rw [dropping, (begun _).1]
  exact ⟨_, ran, rfl, isStorage⟩

private theorem free_new :
    (UartDma.new 8192 fun _ => 0).txFreeSpaceLocked = 8191 ∧ (UartDma.new 1024 fun _ => 0).txFreeSpaceLocked = 1023 := by
  decide +kernel

theorem flash_follows_room_sizes :
    let storage := blankStorage ⟨0, 8192⟩
    let record := sampleRecord 0 5 (by decide)
    ∃ s t, Machine.run step (start (UartDma.new 8192 fun _ => 0) storage) (storing record) = some s ∧
      Machine.run step (start (UartDma.new 1024 fun _ => 0) storage) (storing record) = some t ∧
      s.storage.flash.cells = t.storage.flash.cells := by
  intro storage record
  have small := record.size_le
  obtain ⟨large, less⟩ := free_new
  obtain ⟨s, ran, idle, _, offered⟩ := run_storing (UartDma.new 8192 fun _ => 0) storage record rfl
    (by rw [large]; exact Nat.le_trans small (by decide))
  obtain ⟨t, ran', idle', _, offered'⟩ := run_storing (UartDma.new 1024 fun _ => 0) storage record rfl
    (by rw [less]; exact Nat.le_trans small (by decide))
  exact ⟨s, t, ran, ran', (flash_follows_room storage _ _ _ _ ran ran' idle idle').2.2 (offered.trans offered'.symm)⟩

/-- The same ring behind a dump that filled it, before the first byte moved. -/
def filled : UartDma :=
  { UartDma.new 8192 fun _ => 0 with
    txHead := 8191, txDmaRunning := true, txDmaActiveCount := 1
    channel := { readAddr := 0, transCount := 1, irq := false, started := [(0, 1)], wire := [] } }

private theorem free_filled : filled.txFreeSpaceLocked = 0 := by decide +kernel

private theorem first_cell {t : FlashLogStorage} (area : t.config = ⟨0, 8192⟩) (works : t.Working)
    (represents : Represents t (.fresh ⟨0, 8192⟩)) (record : Record) :
    (t.append record.frame).1 = true ∧ (t.append record.frame).2.flash.cells 0 = 0xA5 := by
  obtain ⟨u, appended, sameConfig, _, related⟩ := represents.append_refines works record
  rw [area] at sameConfig related
  have ring : RingLog.append ⟨0, 8192⟩ (.fresh ⟨0, 8192⟩) record =
      { records := Function.update (fun _ => []) 0 [record], current := 0 } :=
    RingLog.appendAll_block ⟨0, 8192⟩ (.fresh ⟨0, 8192⟩) (List.cons_ne_nil record []) (.inl rfl) (by
      have small := record.size_lt
      rw [frameBytes_cons, frameBytes_nil, List.append_nil, record.length_frame]
      omega)
  rw [ring] at related
  have start : u.config.base 0 = 0 := by
    rw [sameConfig]
    rfl
  have cell := related.imaged.head (k := 0) (by rw [sameConfig]; decide) (by simp [Sector.whole])
  rw [start] at cell
  rw [appended]
  exact ⟨rfl, cell⟩

/-- An event is stored when the ring is free, and is not when the ring is full. -/
theorem full_ring_loses_event :
    let storage := ((blankStorage ⟨0, 8192⟩).init true).2
    let record := sampleRecord 0 5 (by decide)
    ∃ s t, Machine.run step (start (UartDma.new 8192 fun _ => 0) storage) (storing record) = some s ∧
      Machine.run step (start filled storage) (dropping record) = some t ∧ s.logger = .waiting ∧ t.logger = .waiting ∧
      (storage.append record.frame).1 = true ∧ s.storage.flash.cells 0 = 0xA5 ∧ t.storage.flash.cells 0 = 0xFF := by
  intro storage record
  obtain ⟨u, started, area, works, represents, erased, _⟩ := init_erased (s := blankStorage ⟨0, 8192⟩) (by decide)
    (blankStorage_working _) (blankStorage_erased _)
  have isStorage : storage = u := congrArg Prod.snd started
  rw [isStorage]
  obtain ⟨stored, cell⟩ := first_cell area works represents record
  have small := record.size_le
  obtain ⟨s, ran, idle, held, _⟩ := run_storing (UartDma.new 8192 fun _ => 0) u record rfl
    (by rw [free_new.1]; exact Nat.le_trans small (by decide))
  obtain ⟨t, ran', idle', held'⟩ := run_dropping filled u record rfl (by rw [free_filled]; exact record.size_pos)
  refine ⟨s, t, ran, ran', idle, idle', stored, ?_, ?_⟩
  · rw [held]
    exact cell
  · rw [held']
    exact erased 0 (by rw [area]; decide) (by rw [area]; decide)

end Traffic

end PicoWLogger
