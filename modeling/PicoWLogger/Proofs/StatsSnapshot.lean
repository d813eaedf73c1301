import PicoWLogger.Proofs.EventAccount
import PicoWLogger.Proofs.EraseNumbering

/-! What a snapshot of the statistics shows. A call sends its event first and counts it later, and only
then looks at the queue; the logger task may have taken and counted the event in between. -/

namespace PicoWLogger
open FlashLogStorage

namespace LoggerSystem
variable {s t : LoggerSystem} {action : LoggerAction}

theorem step_room (taken : s.step action = some t) :
    t.queueLength = s.queueLength ∧ (s.queue.length ≤ s.queueLength → t.queue.length ≤ s.queueLength) := by
  cases action with
  | log _ _ | sendStats =>
    cases taken
    exact ⟨rfl, id⟩
  | logf _ text =>
    cases text <;> cases taken <;> exact ⟨rfl, id⟩
  | makeEvent _ _ =>
    obtain ⟨_, _, rfl⟩ := Option.map_eq_some_iff.mp taken
    rw [makeEvent]
    split <;> exact ⟨rfl, id⟩
  | xQueueSend _ =>
    obtain ⟨_, _, rfl⟩ := Option.map_eq_some_iff.mp taken
    rw [xQueueSend]
    split
    next room =>
      refine ⟨rfl, fun _ => ?_⟩
      rw [List.length_append, List.length_singleton]
      exact room
    next => exact ⟨rfl, id⟩
  | finish _ =>
    obtain ⟨finish, _, rfl⟩ := Option.map_eq_some_iff.mp taken
    cases finish <;> exact ⟨rfl, id⟩
  | receive =>
    rw [step] at taken
    split at taken <;> cases taken
    next ticket rest _ queue =>
      refine ⟨rfl, fun room => ?_⟩
      rw [queue, List.length_cons] at room
      exact Nat.le_of_succ_le room
  | sendFrame accepted =>
    rw [step] at taken
    split at taken <;> cases taken
    cases accepted <;> exact ⟨rfl, id⟩
  | append | eraseLogArea =>
    rw [step] at taken
    split at taken <;> cases taken
    split <;> exact ⟨rfl, id⟩
  | incrementDropCount | countSent | setNextSeq =>
    rw [step] at taken
    split at taken <;> cases taken <;> exact ⟨rfl, id⟩

/-- After these steps the mark is the greatest length that was compared with it. -/
structure Sampled (queueLength : Nat) (s : LoggerSystem) (past : List (LoggerSystem × LoggerAction)) : Prop where
  sameLength : s.queueLength = queueLength
  room : s.queue.length ≤ queueLength
  mark (length : Nat) : length ≤ s.logger.highWaterMark.toNat ↔
    length = 0 ∨ ∃ sample ∈ past, sample.1.samplesQueue sample.2 = true ∧ length ≤ sample.1.queue.length

theorem Sampled.step {queueLength : Nat} (small : queueLength < 2 ^ 32) {past : List (LoggerSystem × LoggerAction)}
    (sampled : Sampled queueLength s past) (taken : s.step action = some t) :
    Sampled queueLength t (past ++ [(s, action)]) := by
  obtain ⟨sameLength, room, mark⟩ := sampled
  have next := step_room taken
  have highWater := (step_counts taken).highWater
  rw [sameLength] at next
  rw [Nat.mod_eq_of_lt (Nat.lt_of_le_of_lt room small)] at highWater
  refine ⟨next.1, next.2 room, fun length => ?_⟩
  simp only [List.mem_append, List.mem_singleton, or_and_right, exists_or, exists_eq_left, ← or_assoc]
  rw [← mark length, highWater]
  split
  next samples => simp only [samples, true_and, le_max_iff]
  next silent => simp only [silent, Bool.false_eq_true, false_and, or_false]

theorem run_sampled {seq queueLength : UInt32} {storage : FlashLogStorage} {actions : List LoggerAction}
    (ran : Machine.run LoggerSystem.step (start seq queueLength.toNat storage) actions = some t) :
    Sampled queueLength.toNat t (Machine.steps LoggerSystem.step (start seq queueLength.toNat storage) actions) := by
  refine Machine.run_invariant (Sampled queueLength.toNat) ⟨rfl, Nat.zero_le _, fun length => ?_⟩
    (Sampled.step queueLength.toNat_lt) ran
  simp [start, EventLogger.new]

/-- Before a counter wraps a snapshot agrees with itself if and only if the calls that sent their event and
have not counted it are no more than the events that are sent and not yet counted as
transmitted, and a task call has counted with as many events in the queue as it ever held. -/
theorem stats_snapshot_iff (seq queueLength : UInt32) (storage : FlashLogStorage) (actions : List LoggerAction)
    (ran : Machine.run step (start seq queueLength.toNat storage) actions = some t)
    (few : (Machine.steps step (start seq queueLength.toNat storage) actions).countP
      (fun taken => taken.1.countsEnqueued taken.2) < 2 ^ 32)
    (fewSent : (Machine.steps step (start seq queueLength.toNat storage) actions).countP
      (fun taken => countsSent taken.2) < 2 ^ 32) :
    let past := Machine.steps step (start seq queueLength.toNat storage) actions
    (t.logger.uartTxCount ≤ t.logger.enqueueOkCount ∧
        ∀ earlier ∈ past, earlier.1.queue.length ≤ t.logger.highWaterMark.toNat) ↔
      t.uncounted ≤ t.queue.length + (t.dequeued.length - t.live.length) + t.task.transmitting ∧
        ∀ earlier ∈ past, earlier.1.queue ≠ [] →
          ∃ sample ∈ past, sample.1.samplesQueue sample.2 = true ∧ earlier.1.queue.length ≤ sample.1.queue.length := by
  intro past
  obtain ⟨_, enqueued, enqueueOk, sent, uartTx, accepted⟩ := run_accounted ran
  obtain ⟨_, _, mark⟩ := run_sampled ran
  refine and_congr ?_ (forall₂_congr fun earlier _ => ?_)
  · rw [UInt32.le_iff_toNat_le, enqueueOk, uartTx, Nat.mod_eq_of_lt few, Nat.mod_eq_of_lt fewSent]
    omega
  · rw [mark, List.length_eq_zero_iff]
    exact Classical.or_iff_not_imp_left

/-- A call that is through before the logger task takes its event. -/
def waitingCall : List LoggerAction := [.log emptyRequest false, .makeEvent 0 0, .xQueueSend 0, .finish 0]

private theorem run_waitingCall (storage : FlashLogStorage) :
    let past := Machine.steps step (start 0 (32 : UInt32).toNat storage) waitingCall
    ∃ t, Machine.run step (start 0 (32 : UInt32).toNat storage) waitingCall = some t ∧ past.length < 2 ^ 32 ∧
      t.uncounted = 0 ∧ ∀ earlier ∈ past, earlier.1.queue ≠ [] →
        ∃ sample ∈ past, sample.1.samplesQueue sample.2 = true ∧ earlier.1.queue.length ≤ sample.1.queue.length := by
  intro past
  obtain ⟨t, entered, numbered, sent, ran, isPast, noEvent, samples, counted⟩ : ∃ t entered numbered sent,
      Machine.run step (start 0 (32 : UInt32).toNat storage) waitingCall = some t ∧
      past = [(start 0 (32 : UInt32).toNat storage, .log emptyRequest false), (entered, .makeEvent 0 0),
        (numbered, .xQueueSend 0), (sent, .finish 0)] ∧
      (entered.queue = [] ∧ numbered.queue = []) ∧ sent.samplesQueue (.finish 0) = true ∧ t.uncounted = 0 :=
    ⟨_, _, _, _, rfl, rfl, ⟨rfl, rfl⟩, rfl, rfl⟩
  obtain ⟨emptyEntered, emptyNumbered⟩ := noEvent
  rw [isPast]
  refine ⟨t, ran, (by decide : 4 < 2 ^ 32), counted, ?_⟩
  intro earlier member held
  simp only [List.mem_cons, List.not_mem_nil, or_false] at member
  rcases member with rfl | rfl | rfl | rfl
  · exact absurd rfl held
  · exact absurd emptyEntered held
  · exact absurd emptyNumbered held
  · exact ⟨(sent, .finish 0), .tail _ (.tail _ (.tail _ (.head _))), samples, Nat.le_refl _⟩

theorem stats_snapshot_waiting :
    ∃ t, Machine.run step (start 0 (32 : UInt32).toNat (blankStorage ⟨0, 8192⟩)) waitingCall = some t ∧
      t.logger.uartTxCount ≤ t.logger.enqueueOkCount ∧
      ∀ earlier ∈ Machine.steps step (start 0 (32 : UInt32).toNat (blankStorage ⟨0, 8192⟩)) waitingCall,
        earlier.1.queue.length ≤ t.logger.highWaterMark.toNat := by
  obtain ⟨t, ran, short, counted, compared⟩ := run_waitingCall (blankStorage ⟨0, 8192⟩)
  refine ⟨t, ran, (stats_snapshot_iff 0 32 _ waitingCall ran (Nat.lt_of_le_of_lt List.countP_le_length short)
    (Nat.lt_of_le_of_lt List.countP_le_length short)).mpr ⟨?_, compared⟩⟩
  rw [counted]
  exact Nat.zero_le _

private theorem snapshot_preempted {storage after : FlashLogStorage}
    (appended : storage.append (emptyRequest.event (by decide) 0 0).frame = (true, after)) :
    ∃ t, Machine.run step (start 0 (32 : UInt32).toNat storage) storedCall = some t ∧ t.logger.uartTxCount = 1 ∧
      t.logger.enqueueOkCount = 0 ∧ t.logger.highWaterMark = 0 ∧
      ∃ earlier ∈ Machine.steps step (start 0 (32 : UInt32).toNat storage) storedCall, earlier.1.queue.length = 1 := by
  have split : storedCall = [.log emptyRequest false, .makeEvent 0 0] ++
      [.xQueueSend 0, .receive, .sendFrame true, .append, .countSent] := rfl
  obtain ⟨numbered, made, lone, sameStorage, logger⟩ : ∃ numbered, Machine.run step (start 0 (32 : UInt32).toNat storage)
      [.log emptyRequest false, .makeEvent 0 0] = some numbered ∧
      numbered.Lone ⟨0, emptyRequest.event (by decide) 0 0⟩ ∧ numbered.storage = storage ∧
      numbered.logger = { EventLogger.new 0 with seq := 1 } :=
    ⟨_, rfl, ⟨rfl, rfl, (by decide : 0 < (32 : UInt32).toNat), rfl⟩, rfl, rfl⟩
  have rest := run_lone lone (by rw [sameStorage]; exact appended)
  have begun : Machine.run step (start 0 (32 : UInt32).toNat storage) storedCall =
      Machine.run step numbered [.xQueueSend 0, .receive, .sendFrame true, .append, .countSent] := by
    rw [split, Machine.run_append, made, Option.bind_some]
  refine ⟨_, begun.trans rest, ?_, ?_, ?_, _, .tail _ (.tail _ (.tail _ (.head _))), rfl⟩
  · simp only [EventLogger.countSent, logger, EventLogger.new, UInt32.zero_add]
  · simp only [EventLogger.countSent, logger, EventLogger.new]
  · simp only [EventLogger.countSent, logger, EventLogger.new]

/-- A call is preempted behind its send: the logger task transmits the event before the call counts it. -/
theorem preempted_call_snapshot :
    let first := start 0 (32 : UInt32).toNat ((blankStorage ⟨0, 8192⟩).init true).2
    ∃ t, Machine.run step first storedCall = some t ∧ t.logger.uartTxCount = 1 ∧ t.logger.enqueueOkCount = 0 ∧
      t.logger.highWaterMark = 0 ∧ ∃ earlier ∈ Machine.steps step first storedCall, earlier.1.queue.length = 1 := by
  obtain ⟨t, started, _, works, represents, _⟩ := init_erased (s := blankStorage ⟨0, 8192⟩) (by decide)
    (blankStorage_working _) (blankStorage_erased _)
  rw [started]
  obtain ⟨u, appended, _⟩ := represents.append_refines works (emptyRequest.event (by decide) 0 0)
  exact snapshot_preempted appended

end LoggerSystem

end PicoWLogger
