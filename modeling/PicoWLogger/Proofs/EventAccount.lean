import PicoWLogger.Proofs.SequenceOrder
import PicoWLogger.Proofs.FailedAppend
import Mathlib.Data.List.Perm.Basic

/-! What the counters of the event logger add up to. Between any two steps each event is counted, or
some call or the logger task has still to count it; an append that fails makes two counts due. -/

namespace PicoWLogger

/-- How many counts the task has still to make for its event. -/
def LoggerTask.owed : LoggerTask → Nat
  | .waiting => 0
  | .received _ | .sent _ | .appended _ | .dropping => 1
  | .failed _ => 2

/-- Whether the frame of the task's event is accepted by the UART and not counted yet. -/
def LoggerTask.transmitting : LoggerTask → Nat
  | .sent _ | .failed _ | .appended _ => 1
  | .waiting | .received _ | .dropping => 0

/-- Whether the task has still to offer its event to the UART. -/
def LoggerTask.offering : LoggerTask → Nat
  | .received _ => 1
  | _ => 0

def Finish.counts : Finish → Bool
  | .counted _ => true
  | .dropped => false

namespace LoggerSystem

/-- The calls of `log`, `logFromISR` and `logf`; `sendStats` calls `log`. -/
def isCall : LoggerAction → Bool
  | .log _ _ | .logf _ _ | .sendStats => true
  | _ => false

def failsAppend (s : LoggerSystem) : LoggerAction → Bool
  | .append =>
    match s.task with
    | .sent ticket => !(s.storage.append ticket.record.frame).1
    | _ => false
  | _ => false

def countsEnqueued (s : LoggerSystem) : LoggerAction → Bool
  | .finish index => s.finishing[index]?.any Finish.counts
  | _ => false

def samplesQueue (s : LoggerSystem) : LoggerAction → Bool
  | .finish index => s.finishing[index]? == some (.counted false)
  | _ => false

def countsSent : LoggerAction → Bool
  | .countSent => true
  | _ => false

def outstanding (s : LoggerSystem) : Nat :=
  s.entered.length + s.numbered.length + s.finishing.countP (fun finish => !finish.counts) + s.queue.length + s.task.owed

def uncounted (s : LoggerSystem) : Nat := s.finishing.countP Finish.counts

/-- What the counters add up to after these steps. -/
structure Accounted (s : LoggerSystem) (past : List (LoggerSystem × LoggerAction)) : Prop where
  balance : (s.logger.uartTxCount.toNat + s.logger.dropCount.toNat + s.outstanding) % 2 ^ 32 =
    (past.countP (fun step => isCall step.2) + past.countP fun step => step.1.failsAppend step.2) % 2 ^ 32
  enqueued : past.countP (fun step => step.1.countsEnqueued step.2) + s.uncounted = s.queue.length + s.dequeued.length
  enqueueOk : s.logger.enqueueOkCount.toNat = past.countP (fun step => step.1.countsEnqueued step.2) % 2 ^ 32
  sent : past.countP (fun step => countsSent step.2) + s.task.transmitting = s.live.length
  uartTx : s.logger.uartTxCount.toNat = past.countP (fun step => countsSent step.2) % 2 ^ 32
  accepted : s.live.length + s.task.offering ≤ s.dequeued.length

variable {s t : LoggerSystem} {action : LoggerAction}

/-- What a step changes in the counts that are made and that are due. -/
structure Counts (s t : LoggerSystem) (action : LoggerAction) : Prop where
  balance : (t.logger.uartTxCount.toNat + t.logger.dropCount.toNat + t.outstanding) % 2 ^ 32 =
    (s.logger.uartTxCount.toNat + s.logger.dropCount.toNat + s.outstanding + (if isCall action then 1 else 0) +
      if s.failsAppend action then 1 else 0) % 2 ^ 32
  enqueued : t.uncounted + (if s.countsEnqueued action then 1 else 0) + s.queue.length + s.dequeued.length =
    s.uncounted + t.queue.length + t.dequeued.length
  enqueueOk : t.logger.enqueueOkCount.toNat =
    (s.logger.enqueueOkCount.toNat + if s.countsEnqueued action then 1 else 0) % 2 ^ 32
  sent : t.task.transmitting + (if countsSent action then 1 else 0) + s.live.length = s.task.transmitting + t.live.length
  uartTx : t.logger.uartTxCount.toNat = (s.logger.uartTxCount.toNat + if countsSent action then 1 else 0) % 2 ^ 32
  accepted : t.live.length + t.task.offering + s.dequeued.length ≤ s.live.length + s.task.offering + t.dequeued.length
  highWater : t.logger.highWaterMark.toNat =
    if s.samplesQueue action then max s.logger.highWaterMark.toNat (s.queue.length % 2 ^ 32)
    else s.logger.highWaterMark.toNat

private theorem length_eraseIdx_succ {α : Type} {items : List α} {index : Nat} {item : α} (found : items[index]? = some item) :
    (items.eraseIdx index).length + 1 = items.length := by
  obtain ⟨inside, _⟩ := List.getElem?_eq_some_iff.mp found
  rw [List.length_eraseIdx_of_lt inside]
  omega

private theorem countP_eraseIdx {α : Type} {items : List α} {index : Nat} {item : α} (found : items[index]? = some item)
    (p : α → Bool) : (items.eraseIdx index).countP p + (if p item then 1 else 0) = items.countP p := by
  obtain ⟨inside, rfl⟩ := List.getElem?_eq_some_iff.mp found
  rw [← (List.getElem_cons_eraseIdx_perm inside).countP_eq, List.countP_cons]

private theorem toNat_kept (count : UInt32) : count.toNat = (count.toNat + 0) % 2 ^ 32 :=
  (Nat.mod_eq_of_lt count.toNat_lt).symm

private theorem toNat_counted (count : UInt32) : (count + 1).toNat = (count.toNat + 1) % 2 ^ 32 := by
  rw [UInt32.toNat_add, UInt32.toNat_one]

/-- A step of a call, or of the command task, moves what is due between the stages. -/
theorem Counts.moved (counters : ∃ seq, t.logger = s.logger.setNextSeq seq)
    (task : t.task = s.task) (live : t.live = s.live) (dequeued : t.dequeued = s.dequeued)
    (due : t.outstanding = s.outstanding + (if isCall action then 1 else 0))
    (enqueued : t.uncounted + s.queue.length = s.uncounted + t.queue.length)
    (counts : s.countsEnqueued action = false ∧ s.samplesQueue action = false ∧ countsSent action = false ∧
      s.failsAppend action = false) : Counts s t action := by
  obtain ⟨notEnqueued, notSampled, notSent, noFailure⟩ := counts
  obtain ⟨seq, logger⟩ := counters
  refine ⟨?_, ?_, ?_, ?_, ?_, ?_, ?_⟩
  · rw [logger, due, noFailure]
    simp only [EventLogger.setNextSeq, Bool.false_eq_true, ↓reduceIte]
    omega
  · rw [notEnqueued, dequeued]
    simp only [Bool.false_eq_true, ↓reduceIte]
    omega
  · rw [notEnqueued, logger]
    exact toNat_kept _
  · rw [notSent, task, live]
    rfl
  · rw [notSent, logger]
    exact toNat_kept _
  · rw [task, live, dequeued]
  · rw [notSampled, logger]
    rfl

/-- A step of the logger task behind `receive` leaves the calls and the queue alone. -/
theorem Counts.turned (calls : t.entered = s.entered ∧ t.numbered = s.numbered ∧ t.finishing = s.finishing)
    (sends : t.queue = s.queue ∧ t.dequeued = s.dequeued ∧
      t.logger.enqueueOkCount = s.logger.enqueueOkCount ∧ t.logger.highWaterMark = s.logger.highWaterMark)
    (counts : isCall action = false ∧ s.countsEnqueued action = false ∧ s.samplesQueue action = false)
    (balance : (t.logger.uartTxCount.toNat + t.logger.dropCount.toNat + t.task.owed) % 2 ^ 32 =
      (s.logger.uartTxCount.toNat + s.logger.dropCount.toNat + s.task.owed + if s.failsAppend action then 1 else 0) % 2 ^ 32)
    (sent : t.task.transmitting + (if countsSent action then 1 else 0) + s.live.length =
      s.task.transmitting + t.live.length)
    (uartTx : t.logger.uartTxCount.toNat = (s.logger.uartTxCount.toNat + if countsSent action then 1 else 0) % 2 ^ 32)
    (accepted : t.live.length + t.task.offering ≤ s.live.length + s.task.offering) : Counts s t action := by
  obtain ⟨entered, numbered, finishing⟩ := calls
  obtain ⟨queue, dequeued, enqueueOk, mark⟩ := sends
  obtain ⟨noCall, notEnqueued, notSampled⟩ := counts
  refine ⟨?_, ?_, ?_, sent, uartTx, ?_, ?_⟩
  · simp only [outstanding, entered, numbered, finishing, queue, noCall, Bool.false_eq_true, ↓reduceIte]
    omega
  · rw [notEnqueued, uncounted, uncounted, finishing, queue, dequeued]
    rfl
  · rw [notEnqueued, enqueueOk]
    exact toNat_kept _
  · rw [dequeued]
    omega
  · rw [notSampled, mark]
    rfl

theorem entered_counts (call : LogRequest × Bool) (isOne : isCall action = true)
    (counts : s.countsEnqueued action = false ∧ s.samplesQueue action = false ∧ countsSent action = false ∧
      s.failsAppend action = false) : Counts s { s with entered := s.entered ++ [call] } action := by
  refine .moved ⟨_, rfl⟩ rfl rfl rfl ?_ rfl counts
  rw [isOne]
  simp only [outstanding, List.length_append, List.length_singleton, ↓reduceIte]
  omega

theorem refused_counts {entered : List (LogRequest × Bool)} {numbered : List (Ticket × Bool)}
    (leaves : entered.length + numbered.length + 1 =
      s.entered.length + s.numbered.length + if isCall action then 1 else 0)
    (counts : s.countsEnqueued action = false ∧ s.samplesQueue action = false ∧ countsSent action = false ∧
      s.failsAppend action = false) :
    Counts s { s with entered, numbered, finishing := s.finishing ++ [.dropped] } action := by
  refine .moved ⟨_, rfl⟩ rfl rfl rfl ?_ ?_ counts
  · simp only [outstanding, List.countP_append, List.countP_singleton, Finish.counts, Bool.not_false, ↓reduceIte]
    omega
  · simp [uncounted, Finish.counts]

theorem makeEvent_counts {index : Nat} {request : LogRequest} {isr : Bool} (timestampUs : UInt32)
    (found : s.entered[index]? = some (request, isr)) :
    Counts s (s.makeEvent index request isr timestampUs) (.makeEvent index timestampUs) := by
  have shorter := length_eraseIdx_succ found
  rw [makeEvent]
  split
  · refine .moved ⟨_, rfl⟩ rfl rfl rfl ?_ rfl ⟨rfl, rfl, rfl, rfl⟩
    simp only [outstanding, List.length_append, List.length_singleton, isCall, Bool.false_eq_true, ↓reduceIte]
    omega
  · refine refused_counts ?_ ⟨rfl, rfl, rfl, rfl⟩
    simp only [isCall, Bool.false_eq_true, ↓reduceIte]
    omega

theorem xQueueSend_counts {index : Nat} {ticket : Ticket} {isr : Bool} (found : s.numbered[index]? = some (ticket, isr)) :
    Counts s (s.xQueueSend index ticket isr) (.xQueueSend index) := by
  have shorter := length_eraseIdx_succ found
  rw [xQueueSend]
  split
  · refine .moved ⟨_, rfl⟩ rfl rfl rfl ?_ ?_ ⟨rfl, rfl, rfl, rfl⟩
    · simp only [outstanding, List.countP_append, List.countP_singleton, List.length_append, List.length_singleton,
        Finish.counts, isCall, Bool.not_true, Bool.false_eq_true, ↓reduceIte]
      omega
    · simp only [uncounted, List.countP_append, List.countP_singleton, List.length_append, List.length_singleton,
        Finish.counts, ↓reduceIte]
      omega
  · refine refused_counts ?_ ⟨rfl, rfl, rfl, rfl⟩
    simp only [isCall, Bool.false_eq_true, ↓reduceIte]
    omega

theorem countEnqueued_counts (l : EventLogger) (isr : Bool) (used : UInt32) :
    (l.countEnqueued isr used).enqueueOkCount = l.enqueueOkCount + 1 ∧
      (l.countEnqueued isr used).uartTxCount = l.uartTxCount ∧ (l.countEnqueued isr used).dropCount = l.dropCount ∧
      (l.countEnqueued isr used).highWaterMark.toNat =
        if isr then l.highWaterMark.toNat else max l.highWaterMark.toNat used.toNat := by
  rw [EventLogger.countEnqueued]
  split
  · exact ⟨rfl, rfl, rfl, rfl⟩
  · split
    next higher =>
      have longer := UInt32.lt_iff_toNat_lt.mp higher
      exact ⟨rfl, rfl, rfl, (Nat.max_eq_right (Nat.le_of_lt longer)).symm⟩
    next notHigher =>
      have shorter := UInt32.le_iff_toNat_le.mp (UInt32.not_lt.mp notHigher)
      exact ⟨rfl, rfl, rfl, (Nat.max_eq_left shorter).symm⟩

theorem finish_counts {index : Nat} {finish : Finish} (found : s.finishing[index]? = some finish) :
    Counts s (s.finish index finish) (.finish index) := by
  have dropping := countP_eraseIdx found fun finish => !finish.counts
  have counting := countP_eraseIdx found Finish.counts
  have isCounted : s.countsEnqueued (.finish index) = finish.counts := by
    rw [countsEnqueued, found, Option.any_some]
  have isSampled : s.samplesQueue (.finish index) = (finish == .counted false) := by
    rw [samplesQueue, found]
    rfl
  cases finish with
  | counted isr =>
    obtain ⟨enqueueOk, tx, drop, mark⟩ := countEnqueued_counts s.logger isr (UInt32.ofNat s.queue.length)
    have one : (s.finishing.eraseIdx index).countP Finish.counts + 1 = s.finishing.countP Finish.counts := counting
    have none : (s.finishing.eraseIdx index).countP (fun finish => !finish.counts) =
      s.finishing.countP fun finish => !finish.counts := dropping
    refine ⟨?_, ?_, ?_, rfl, ?_, Nat.le_refl _, ?_⟩
    · simp only [LoggerSystem.finish, tx, drop, outstanding, none, isCall, failsAppend, Bool.false_eq_true, ↓reduceIte,
        Nat.add_zero]
    · simp only [LoggerSystem.finish, isCounted, Finish.counts, uncounted, ↓reduceIte]
      omega
    · simp only [LoggerSystem.finish, isCounted, Finish.counts, enqueueOk, ↓reduceIte]
      exact toNat_counted _
    · simp only [LoggerSystem.finish, tx]
      exact toNat_kept _
    · rw [isSampled]
      refine mark.trans ?_
      cases isr <;> rfl
  | dropped =>
    have none : (s.finishing.eraseIdx index).countP Finish.counts = s.finishing.countP Finish.counts := counting
    have one : (s.finishing.eraseIdx index).countP (fun finish => !finish.counts) + 1 =
      s.finishing.countP fun finish => !finish.counts := dropping
    refine ⟨?_, ?_, ?_, rfl, toNat_kept _, Nat.le_refl _, ?_⟩
    · simp only [LoggerSystem.finish, EventLogger.incrementDropCount, outstanding, isCall, failsAppend, UInt32.toNat_add,
        UInt32.toNat_one, Bool.false_eq_true, ↓reduceIte]
      omega
    · simp only [LoggerSystem.finish, isCounted, Finish.counts, uncounted, none, Bool.false_eq_true, ↓reduceIte,
        Nat.add_zero]
    · rw [isCounted]
      exact toNat_kept _
    · rw [isSampled]
      rfl

theorem receive_counts (taken : s.step .receive = some t) : Counts s t .receive := by
  rw [step] at taken
  split at taken <;> cases taken
  next ticket rest waiting queue =>
    refine ⟨?_, ?_, toNat_kept _, ?_, toNat_kept _, ?_, rfl⟩
    · simp only [outstanding, waiting, queue, LoggerTask.owed, List.length_cons, isCall, failsAppend, Bool.false_eq_true,
        ↓reduceIte]
      omega
    · simp only [uncounted, queue, List.length_cons, List.length_append, List.length_nil, countsEnqueued,
        Bool.false_eq_true, ↓reduceIte]
      omega
    · rw [waiting]
      rfl
    · simp only [waiting, LoggerTask.offering, List.length_append, List.length_singleton]
      omega

theorem sendFrame_counts {accepted : Bool} (taken : s.step (.sendFrame accepted) = some t) :
    Counts s t (.sendFrame accepted) := by
  rw [step] at taken
  split at taken <;> cases taken
  next ticket received =>
    cases accepted with
    | true =>
      refine .turned ⟨rfl, rfl, rfl⟩ ⟨rfl, rfl, rfl, rfl⟩ ⟨rfl, rfl, rfl⟩ ?_ ?_ (toNat_kept _) ?_
      · simp only [received, LoggerTask.owed, failsAppend, Bool.false_eq_true, ↓reduceIte, Nat.add_zero]
      · simp only [received, LoggerTask.transmitting, countsSent, List.length_append, List.length_singleton,
          Bool.false_eq_true, ↓reduceIte]
        omega
      · simp only [received, LoggerTask.offering, List.length_append, List.length_singleton, ↓reduceIte, Nat.le_refl]
    | false =>
      refine .turned ⟨rfl, rfl, rfl⟩ ⟨rfl, rfl, rfl, rfl⟩ ⟨rfl, rfl, rfl⟩ ?_ ?_ (toNat_kept _) (Nat.le_add_right _ _)
      · simp only [received, LoggerTask.owed, failsAppend, Bool.false_eq_true, ↓reduceIte, Nat.add_zero]
      · simp only [received, LoggerTask.transmitting, countsSent, Bool.false_eq_true, ↓reduceIte]

theorem append_counts (taken : s.step .append = some t) : Counts s t .append := by
  rw [step] at taken
  split at taken <;> cases taken
  next ticket sent =>
    cases result : (s.storage.append ticket.record.frame).1 with
    | true =>
      refine .turned ⟨rfl, rfl, rfl⟩ ⟨rfl, rfl, rfl, rfl⟩ ⟨rfl, rfl, rfl⟩ ?_ ?_ (toNat_kept _) ?_
      · simp only [sent, result, LoggerTask.owed, failsAppend, Bool.not_true, Bool.false_eq_true, ↓reduceIte, Nat.add_zero]
      · simp only [sent, LoggerTask.transmitting, countsSent, Bool.false_eq_true, ↓reduceIte, Nat.add_zero]
      · simp only [sent, LoggerTask.offering, ↓reduceIte, Nat.le_refl]
    | false =>
      refine .turned ⟨rfl, rfl, rfl⟩ ⟨rfl, rfl, rfl, rfl⟩ ⟨rfl, rfl, rfl⟩ ?_ ?_ (toNat_kept _) ?_
      · simp only [sent, result, LoggerTask.owed, failsAppend, Bool.not_false, Bool.false_eq_true, ↓reduceIte]
      · simp only [sent, LoggerTask.transmitting, countsSent, Bool.false_eq_true, ↓reduceIte, Nat.add_zero]
      · simp only [sent, LoggerTask.offering, Bool.false_eq_true, ↓reduceIte, Nat.le_refl]

theorem incrementDropCount_counts (taken : s.step .incrementDropCount = some t) : Counts s t .incrementDropCount := by
  rw [step] at taken
  split at taken <;> cases taken
  next dropping =>
    refine .turned ⟨rfl, rfl, rfl⟩ ⟨rfl, rfl, rfl, rfl⟩ ⟨rfl, rfl, rfl⟩ ?_ ?_ (toNat_kept _) ?_
    · simp only [dropping, LoggerTask.owed, EventLogger.incrementDropCount, failsAppend, toNat_counted,
        Bool.false_eq_true, ↓reduceIte]
      omega
    · simp only [dropping, LoggerTask.transmitting, countsSent, Bool.false_eq_true, ↓reduceIte, Nat.add_zero]
    · simp only [dropping, LoggerTask.offering, Nat.le_refl]
  next ticket failed =>
    refine .turned ⟨rfl, rfl, rfl⟩ ⟨rfl, rfl, rfl, rfl⟩ ⟨rfl, rfl, rfl⟩ ?_ ?_ (toNat_kept _) ?_
    · simp only [failed, LoggerTask.owed, EventLogger.incrementDropCount, failsAppend, toNat_counted,
        Bool.false_eq_true, ↓reduceIte]
      omega
    · simp only [failed, LoggerTask.transmitting, countsSent, Bool.false_eq_true, ↓reduceIte, Nat.add_zero]
    · simp only [failed, LoggerTask.offering, Nat.le_refl]

theorem countSent_counts (taken : s.step .countSent = some t) : Counts s t .countSent := by
  rw [step] at taken
  split at taken <;> cases taken
  next ticket appended =>
    refine .turned ⟨rfl, rfl, rfl⟩ ⟨rfl, rfl, rfl, rfl⟩ ⟨rfl, rfl, rfl⟩ ?_ ?_ (toNat_counted _) ?_
    · simp only [appended, LoggerTask.owed, EventLogger.countSent, failsAppend, toNat_counted, Bool.false_eq_true,
        ↓reduceIte]
      omega
    · simp only [appended, LoggerTask.transmitting, countsSent, ↓reduceIte]
    · simp only [appended, LoggerTask.offering, Nat.le_refl]

theorem step_counts (taken : s.step action = some t) : Counts s t action := by
  cases action with
  | log request isr =>
    cases taken
    exact entered_counts _ rfl ⟨rfl, rfl, rfl, rfl⟩
  | logf level text =>
    cases text with
    | none =>
      cases taken
      exact refused_counts rfl ⟨rfl, rfl, rfl, rfl⟩
    | some text =>
      cases taken
      exact entered_counts _ rfl ⟨rfl, rfl, rfl, rfl⟩
  | sendStats =>
    cases taken
    exact entered_counts _ rfl ⟨rfl, rfl, rfl, rfl⟩
  | makeEvent index timestampUs =>
    obtain ⟨call, found, rfl⟩ := Option.map_eq_some_iff.mp taken
    exact makeEvent_counts timestampUs found
  | xQueueSend index =>
    obtain ⟨call, found, rfl⟩ := Option.map_eq_some_iff.mp taken
    exact xQueueSend_counts found
  | finish index =>
    obtain ⟨finish, found, rfl⟩ := Option.map_eq_some_iff.mp taken
    exact finish_counts found
  | receive => exact receive_counts taken
  | sendFrame accepted => exact sendFrame_counts taken
  | append => exact append_counts taken
  | incrementDropCount => exact incrementDropCount_counts taken
  | countSent => exact countSent_counts taken
  | eraseLogArea =>
    rw [step] at taken
    split at taken <;> cases taken
    split <;> exact .moved ⟨_, rfl⟩ rfl rfl rfl rfl rfl ⟨rfl, rfl, rfl, rfl⟩
  | setNextSeq =>
    rw [step] at taken
    split at taken <;> cases taken
    exact .moved ⟨_, rfl⟩ rfl rfl rfl rfl rfl ⟨rfl, rfl, rfl, rfl⟩

theorem start_accounted (seq : UInt32) (queueLength : Nat) (storage : FlashLogStorage) :
    Accounted (start seq queueLength storage) [] :=
  ⟨rfl, rfl, rfl, rfl, rfl, Nat.le_refl _⟩

theorem Accounted.step {past : List (LoggerSystem × LoggerAction)} (accounted : Accounted s past)
    (taken : s.step action = some t) : Accounted t (past ++ [(s, action)]) := by
  obtain ⟨balance, enqueued, enqueueOk, sent, uartTx, accepted⟩ := accounted
  have counts := step_counts taken
  refine ⟨?_, ?_, ?_, ?_, ?_, ?_⟩
  · have next := counts.balance
    simp only [List.countP_append, List.countP_singleton]
    omega
  · have next := counts.enqueued
    simp only [List.countP_append, List.countP_singleton]
    omega
  · have next := counts.enqueueOk
    simp only [List.countP_append, List.countP_singleton]
    omega
  · have next := counts.sent
    simp only [List.countP_append, List.countP_singleton]
    omega
  · have next := counts.uartTx
    simp only [List.countP_append, List.countP_singleton]
    omega
  · have next := counts.accepted
    omega

theorem run_accounted {seq : UInt32} {queueLength : Nat} {storage : FlashLogStorage} {actions : List LoggerAction}
    (ran : Machine.run LoggerSystem.step (start seq queueLength storage) actions = some t) :
    Accounted t (Machine.steps LoggerSystem.step (start seq queueLength storage) actions) :=
  Machine.run_invariant Accounted (start_accounted seq queueLength storage) .step ran

structure Quiet (s : LoggerSystem) : Prop where
  entered : s.entered = []
  numbered : s.numbered = []
  finishing : s.finishing = []
  queue : s.queue = []
  task : s.task = .waiting

theorem Quiet.outstanding (quiet : s.Quiet) : s.outstanding = 0 := by
  obtain ⟨entered, numbered, finishing, queue, task⟩ := quiet
  simp only [LoggerSystem.outstanding, entered, numbered, finishing, queue, task, LoggerTask.owed, List.length_nil,
    List.countP_nil]

/-- When nothing is under way the calls are those delivered and those dropped, if and only if the
appends that failed are a multiple of 2^32: the count of each is one too many. -/
theorem events_accounted_iff (seq : UInt32) (queueLength : Nat) (storage : FlashLogStorage) (actions : List LoggerAction)
    (ran : Machine.run step (start seq queueLength storage) actions = some t) (quiet : t.Quiet) :
    UInt32.ofNat (actions.countP isCall) = t.logger.uartTxCount + t.logger.dropCount ↔
      (Machine.steps step (start seq queueLength storage) actions).countP (fun taken => taken.1.failsAppend taken.2)
        % 2 ^ 32 = 0 := by
  obtain ⟨past, isPast⟩ : ∃ past, Machine.steps step (start seq queueLength storage) actions = past := ⟨_, rfl⟩
  have balance := (run_accounted ran).balance
  have calls : past.countP (fun taken => isCall taken.2) = actions.countP isCall := by
    rw [← Machine.steps_actions ran, List.countP_map, isPast]
    rfl
  rw [isPast, quiet.outstanding, calls] at balance
  rw [isPast, ← UInt32.toNat_inj, UInt32.toNat_ofNat', UInt32.toNat_add]
  constructor
  · intro same
    omega
  · intro none
    omega

/-- A call whose event the UART refuses. -/
def congestedCall : List LoggerAction :=
  [.log emptyRequest false, .makeEvent 0 0, .xQueueSend 0, .finish 0, .receive, .sendFrame false, .incrementDropCount]

/-- A call whose event is sent and not stored. -/
def unstoredCall : List LoggerAction :=
  [.log emptyRequest false, .makeEvent 0 0, .xQueueSend 0, .finish 0, .receive, .sendFrame true, .append,
    .incrementDropCount, .countSent]

private theorem run_congestedCall (storage : FlashLogStorage) :
    ∃ t, Machine.run step (start 0 32 storage) congestedCall = some t ∧ t.Quiet ∧
      t.logger.uartTxCount = 0 ∧ t.logger.dropCount = 1 :=
  ⟨_, rfl, ⟨rfl, rfl, rfl, rfl, rfl⟩, rfl, rfl⟩

/-- Behind a failed append the event is counted as dropped and as sent. -/
theorem run_failedAppend {ticket : Ticket} (sent : s.task = .sent ticket)
    (failed : (s.storage.append ticket.record.frame).1 = false) :
    Machine.run step s [.append, .incrementDropCount, .countSent] = some { s with
      task := .waiting, storage := (s.storage.append ticket.record.frame).2
      stored := if s.storage.putsFrame ticket.record.frame then s.stored ++ [ticket] else s.stored
      logger := s.logger.incrementDropCount.countSent ticket.record.size } := by
  simp [Machine.run, step, sent, failed]

private theorem run_unstoredCall {storage : FlashLogStorage}
    (failed : (storage.append (emptyRequest.event (by decide) 0 0).frame).1 = false) :
    ∃ t, Machine.run step (start 0 32 storage) unstoredCall = some t ∧ t.Quiet ∧
      t.logger.uartTxCount = 1 ∧ t.logger.dropCount = 1 := by
  have split : unstoredCall = [.log emptyRequest false, .makeEvent 0 0, .xQueueSend 0, .finish 0, .receive, .sendFrame true] ++
      [.append, .incrementDropCount, .countSent] := rfl
  obtain ⟨sent, ran, task, sameStorage, counters, quiet⟩ : ∃ sent, Machine.run step (start 0 32 storage)
      [.log emptyRequest false, .makeEvent 0 0, .xQueueSend 0, .finish 0, .receive, .sendFrame true] = some sent ∧
      sent.task = .sent ⟨0, emptyRequest.event (by decide) 0 0⟩ ∧ sent.storage = storage ∧
      (sent.logger.uartTxCount = 0 ∧ sent.logger.dropCount = 0) ∧
      sent.entered = [] ∧ sent.numbered = [] ∧ sent.finishing = [] ∧ sent.queue = [] :=
    ⟨_, rfl, rfl, rfl, ⟨rfl, rfl⟩, rfl, rfl, rfl, rfl⟩
  obtain ⟨tx, drop⟩ := counters
  obtain ⟨entered, numbered, finishing, queue⟩ := quiet
  have rest := run_failedAppend task (by rw [sameStorage]; exact failed)
  rw [split, Machine.run_append, ran, Option.bind_some]
  refine ⟨_, rest, ⟨entered, numbered, finishing, queue, rfl⟩, ?_, ?_⟩
  · simp only [EventLogger.countSent, EventLogger.incrementDropCount, tx, UInt32.zero_add]
  · simp only [EventLogger.countSent, EventLogger.incrementDropCount, drop, UInt32.zero_add]

theorem events_accounted_congested :
    ∃ t, Machine.run step (start 0 32 (blankStorage ⟨0, 8192⟩)) congestedCall = some t ∧
      UInt32.ofNat (congestedCall.countP isCall) = t.logger.uartTxCount + t.logger.dropCount := by
  obtain ⟨t, ran, quiet, _⟩ := run_congestedCall (blankStorage ⟨0, 8192⟩)
  refine ⟨t, ran, (events_accounted_iff 0 32 _ congestedCall ran quiet).mpr ?_⟩
  rfl

/-- One call is counted twice when the flash lock is not granted to its append. -/
theorem unstored_counted_twice :
    let storage := ((blankStorage ⟨0, 8192⟩).init true).2.facing (fun _ => false) fun _ => true
    ∃ t, Machine.run step (start 0 32 storage) unstoredCall = some t ∧ t.Quiet ∧ unstoredCall.countP isCall = 1 ∧
      t.logger.uartTxCount = 1 ∧ t.logger.dropCount = 1 := by
  intro storage
  obtain ⟨t, started, sameConfig, _, represents, _, index⟩ := init_erased (s := blankStorage ⟨0, 8192⟩) (by decide)
    (blankStorage_working _) (blankStorage_erased _)
  rw [blankStorage_config] at sameConfig index
  obtain ⟨u, refused, _⟩ := append_refused (s := t.facing (fun _ => false) fun _ => true) (k := 0)
    (by rw [FlashLogStorage.facing, sameConfig]; decide) (by rw [FlashLogStorage.facing, sameConfig]; decide)
    (by rw [FlashLogStorage.facing, sameConfig]; exact congrArg Index.writeAddr index)
    represents.initialized represents.locked rfl (emptyRequest.event (by decide) 0 0)
  have isStorage : storage = t.facing (fun _ => false) fun _ => true := by
    have running : storage = ((blankStorage ⟨0, 8192⟩).init true).2.facing (fun _ => false) fun _ => true := rfl
    rw [running, started]
  rw [isStorage]
  obtain ⟨last, ran, quiet, sent, dropped⟩ := run_unstoredCall (congrArg Prod.fst refused)
  exact ⟨last, ran, quiet, rfl, sent, dropped⟩

end LoggerSystem

end PicoWLogger
