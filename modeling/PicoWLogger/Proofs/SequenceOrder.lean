import PicoWLogger.LoggerSystem
import PicoWLogger.Proofs.RingIndex

/-! The order in which events leave the queue. Numbers are drawn in order, and they stay in
order up to the flash as long as every send that the queue takes is of the oldest one. -/

namespace PicoWLogger

def LoggerTask.unsent : LoggerTask → List Ticket
  | .received ticket => [ticket]
  | _ => []

/-- Events numbered one after the other by a counter that was `first` when `base` events had
been numbered and is `seq` at `logged`. -/
structure Lane (tickets : List Ticket) (logged : Nat) (seq first : UInt32) (base : Nat) : Prop where
  ordered : tickets.Pairwise fun earlier later => earlier.number < later.number
  drawn : ∀ ticket ∈ tickets, base ≤ ticket.number ∧ ticket.number < logged ∧
    ticket.record.seq = first + UInt32.ofNat (ticket.number - base)
  started : base ≤ logged
  counter : seq = first + UInt32.ofNat (logged - base)

namespace Lane
variable {tickets fewer : List Ticket} {logged base : Nat} {seq first : UInt32}

theorem sublist (lane : Lane tickets logged seq first base) (part : fewer.Sublist tickets) :
    Lane fewer logged seq first base :=
  ⟨lane.ordered.sublist part, fun ticket member => lane.drawn ticket (part.subset member), lane.started, lane.counter⟩

theorem push (lane : Lane tickets logged seq first base) {ticket : Ticket} (number : ticket.number = logged)
    (same : ticket.record.seq = seq) : Lane (tickets ++ [ticket]) (logged + 1) (seq + 1) first base := by
  refine ⟨?_, ?_, Nat.le_succ_of_le lane.started, ?_⟩
  · refine List.pairwise_append.mpr ⟨lane.ordered, List.pairwise_singleton _ _, ?_⟩
    intro earlier member later last
    rw [List.mem_singleton.mp last, number]
    exact (lane.drawn earlier member).2.1
  · intro other member
    rcases List.mem_append.mp member with old | new
    · obtain ⟨low, high, drawn⟩ := lane.drawn other old
      exact ⟨low, Nat.lt_succ_of_lt high, drawn⟩
    · rw [List.mem_singleton.mp new, number, same]
      exact ⟨lane.started, Nat.lt_succ_self _, lane.counter⟩
  · rw [lane.counter, Nat.sub_add_comm lane.started, UInt32.ofNat_add, add_assoc]
    rfl

theorem restart (logged : Nat) : Lane [] logged 0 0 logged :=
  ⟨List.Pairwise.nil, List.forall_mem_nil _, Nat.le_refl _, by rw [Nat.sub_self]; rfl⟩

theorem inSeqOrder (lane : Lane tickets logged seq first base) : InSeqOrder tickets := by
  refine lane.ordered.imp_of_mem ?_
  intro earlier later left right less
  obtain ⟨low, _, drawn⟩ := lane.drawn earlier left
  obtain ⟨low', _, drawn'⟩ := lane.drawn later right
  refine ⟨less, fun window => ?_⟩
  rw [FlashLogStorage.isSeqNewer, decide_eq_true_iff, drawn, drawn', SerialOrder.newer_add,
    SerialOrder.newer_ofNat (by omega) (by omega)]
  omega

/-- A counter that started from zero and has not wrapped numbers as it counts. -/
theorem increasing (lane : Lane tickets logged seq 0 base) (few : logged < 2 ^ 31) :
    (tickets.map fun ticket => ticket.record.seq.toNat).Pairwise (· < ·) := by
  rw [List.pairwise_map]
  refine lane.ordered.imp_of_mem ?_
  intro earlier later left right less
  obtain ⟨low, high, drawn⟩ := lane.drawn earlier left
  obtain ⟨low', high', drawn'⟩ := lane.drawn later right
  rw [drawn, drawn', zero_add, zero_add, UInt32.toNat_ofNat', UInt32.toNat_ofNat']
  omega

end Lane

namespace LoggerSystem

def upcoming (s : LoggerSystem) : List Ticket := s.queue ++ s.numbered.map Prod.fst

/-- What a step does to a list of numbered events and to the counter. -/
inductive Moves (action : LoggerAction) (s t : LoggerSystem) (before after : List Ticket) : Prop where
  | drawn (ticket : Ticket) (number : ticket.number = s.logged) (seq : ticket.record.seq = s.logger.seq)
      (lane : after = before ++ [ticket]) (logged : t.logged = s.logged + 1) (counter : t.logger.seq = s.logger.seq + 1)
  | kept (lane : after.Sublist before) (logged : t.logged = s.logged) (counter : t.logger.seq = s.logger.seq)
  | reset (command : action = .setNextSeq) (lane : after = before) (logged : t.logged = s.logged)
      (counter : t.logger.seq = 0)

variable {s t : LoggerSystem} {action : LoggerAction}

def dequeuedLane (s : LoggerSystem) : List Ticket := s.dequeued ++ s.upcoming

def storedLane (s : LoggerSystem) : List Ticket := s.stored ++ s.task.pending ++ s.upcoming

@[simp] theorem countEnqueued_seq (l : EventLogger) (isr : Bool) (used : UInt32) :
    (l.countEnqueued isr used).seq = l.seq := by
  rw [EventLogger.countEnqueued]
  split
  · rfl
  · split <;> rfl

theorem Moves.behind {before after : List Ticket} (moves : Moves action s t before after) (front : List Ticket) :
    Moves action s t (front ++ before) (front ++ after) := by
  cases moves with
  | drawn ticket number seq lane logged counter =>
    exact .drawn ticket number seq (by rw [lane, List.append_assoc]) logged counter
  | kept lane logged counter => exact .kept (lane.append_left front) logged counter
  | reset command lane logged counter => exact .reset command (by rw [lane]) logged counter

/-- What a step can do. A step of a call moves the upcoming events only. A step of the logger
task passes on what it takes from the queue. The command empties the log, then resets the counter. -/
inductive Effect (action : LoggerAction) (s t : LoggerSystem) : Prop where
  | call (goes : action ≠ .setNextSeq)
      (kept : t = { s with
        logger := t.logger, queue := t.queue, entered := t.entered, numbered := t.numbered
        finishing := t.finishing, logged := t.logged })
      (moves : s.InTurn action → Moves action s t s.upcoming t.upcoming)
  | task (goes : action ≠ .setNextSeq) (received : List Ticket)
      (kept : t = { s with
        logger := t.logger, queue := t.queue, task := t.task, storage := t.storage
        dequeued := s.dequeued ++ received, live := t.live, stored := t.stored })
      (counter : t.logger.seq = s.logger.seq) (queue : s.queue = received ++ t.queue)
      (live : (t.live ++ t.task.unsent).Sublist (s.live ++ s.task.unsent ++ received))
      (stored : (t.stored ++ t.task.pending).Sublist (s.stored ++ s.task.pending ++ received))
  | erased (command : action = .eraseLogArea)
      (kept : t = { s with command := t.command, storage := t.storage, stored := t.stored })
      (stored : t.stored.Sublist s.stored)
  | reset (command : action = .setNextSeq) (begun : s.command = .erased)
      (kept : t = { s with command := .idle, logger := t.logger, erases := s.erases + 1 }) (counter : t.logger.seq = 0)

theorem xQueueSend_effect {index : Nat} {call : Ticket × Bool} (found : s.numbered[index]? = some call) :
    Effect (.xQueueSend index) s (s.xQueueSend index call.1 call.2) := by
  rw [xQueueSend]
  split
  · next room =>
    refine .call LoggerAction.noConfusion rfl fun inTurn => ?_
    have first := inTurn index rfl room
    subst first
    obtain ⟨rest, shape⟩ : ∃ rest, s.numbered = call :: rest := by
      cases numbered : s.numbered with
      | nil => rw [numbered] at found; cases found
      | cons head rest => rw [numbered] at found; cases found; exact ⟨rest, rfl⟩
    refine .kept ?_ rfl rfl
    simp [upcoming, shape]
  · refine .call LoggerAction.noConfusion rfl fun _ => .kept ?_ rfl rfl
    exact (((List.eraseIdx_sublist s.numbered index).map Prod.fst).append_left s.queue)

theorem makeEvent_effect (index : Nat) (request : LogRequest) (isr : Bool) (timestampUs : UInt32) :
    Effect (.makeEvent index timestampUs) s (s.makeEvent index request isr timestampUs) := by
  rw [makeEvent]
  split
  · next fits =>
    refine .call LoggerAction.noConfusion rfl fun _ => .drawn ⟨s.logged, request.event fits s.logger.seq timestampUs⟩ rfl rfl ?_ rfl rfl
    simp [upcoming, EventLogger.nextSeq]
  · exact .call LoggerAction.noConfusion rfl fun _ => .kept (List.Sublist.refl _) rfl rfl

/-- The task has nothing left to append behind `append`, whatever it returned. -/
theorem append_effect {ticket : Ticket} (sent : s.task = .sent ticket) :
    Effect .append s { s with
      task := if (s.storage.append ticket.record.frame).1 then .appended ticket else .failed ticket
      storage := (s.storage.append ticket.record.frame).2
      stored := if s.storage.putsFrame ticket.record.frame then s.stored ++ [ticket] else s.stored } := by
  obtain ⟨task, same, unsent, pending⟩ : ∃ task : LoggerTask,
      (if (s.storage.append ticket.record.frame).1 then .appended ticket else .failed ticket) = task ∧
        task.unsent = [] ∧ task.pending = [] := by
    split
    · exact ⟨_, rfl, rfl, rfl⟩
    · exact ⟨_, rfl, rfl, rfl⟩
  rw [same]
  refine .task LoggerAction.noConfusion [] (by simp) rfl rfl ?_ ?_
  · simp [unsent]
  · rw [pending, List.append_nil, List.append_nil, sent]
    split
    · exact List.Sublist.refl _
    · exact List.sublist_append_left _ _

/-- Counters and the two ends of a call are no part of the numbered events. -/
theorem Effect.aside (goes : action ≠ .setNextSeq) (logger : EventLogger) (counter : logger.seq = s.logger.seq)
    (entered : List (LogRequest × Bool)) (finishing : List Finish) :
    Effect action s { s with logger, entered, finishing } :=
  .call goes rfl fun _ => .kept (List.Sublist.refl _) rfl counter

/-- The task goes on with the event it has. -/
theorem Effect.onward (goes : action ≠ .setNextSeq) (logger : EventLogger) (task : LoggerTask) (live : List Ticket)
    (counter : logger.seq = s.logger.seq) (sent : (live ++ task.unsent).Sublist (s.live ++ s.task.unsent))
    (pending : task.pending.Sublist s.task.pending) : Effect action s { s with logger, task, live } :=
  .task goes [] (by simp) counter rfl (by simpa using sent) (by simpa using pending)

theorem finish_effect (index : Nat) (finish : Finish) : Effect (.finish index) s (s.finish index finish) := by
  cases finish with
  | counted isr =>
    rw [LoggerSystem.finish]
    exact .aside LoggerAction.noConfusion _ (countEnqueued_seq _ _ _) _ _
  | dropped =>
    rw [LoggerSystem.finish]
    exact .aside LoggerAction.noConfusion s.logger.incrementDropCount rfl s.entered _

theorem receive_effect {ticket : Ticket} {rest : List Ticket} (waiting : s.task = .waiting)
    (queue : s.queue = ticket :: rest) :
    Effect .receive s { s with task := .received ticket, queue := rest, dequeued := s.dequeued ++ [ticket] } := by
  refine .task LoggerAction.noConfusion [ticket] rfl rfl queue ?_ ?_
  · simp [waiting, LoggerTask.unsent]
  · simp [waiting, LoggerTask.pending]

theorem sendFrame_effect {ticket : Ticket} (received : s.task = .received ticket) (accepted : Bool) :
    Effect (.sendFrame accepted) s
      (if accepted then { s with task := .sent ticket, live := s.live ++ [ticket] } else { s with task := .dropping }) := by
  cases accepted with
  | false =>
    exact .onward LoggerAction.noConfusion s.logger .dropping s.live rfl (by simp [LoggerTask.unsent]) (List.nil_sublist _)
  | true =>
    refine .onward LoggerAction.noConfusion s.logger (.sent ticket) (s.live ++ [ticket]) rfl ?_ ?_
    · simp [received, LoggerTask.unsent]
    · simp [received, LoggerTask.pending]

theorem eraseLogArea_effect :
    Effect .eraseLogArea s (if s.storage.eraseLogArea.1 then
      { s with command := .erased, storage := s.storage.eraseLogArea.2, stored := [] }
      else { s with storage := s.storage.eraseLogArea.2 }) := by
  split
  · exact .erased rfl rfl (List.nil_sublist _)
  · exact .erased rfl rfl (List.Sublist.refl _)

theorem step_effect (taken : s.step action = some t) : Effect action s t := by
  cases action with
  | log request isr =>
    cases taken
    exact .aside LoggerAction.noConfusion _ rfl _ _
  | logf level text =>
    cases text <;> cases taken <;> exact .aside LoggerAction.noConfusion _ rfl _ _
  | sendStats =>
    cases taken
    exact .aside LoggerAction.noConfusion _ rfl _ _
  | makeEvent index timestampUs =>
    obtain ⟨call, _, rfl⟩ := Option.map_eq_some_iff.mp taken
    exact makeEvent_effect index call.1 call.2 timestampUs
  | xQueueSend index =>
    obtain ⟨call, found, rfl⟩ := Option.map_eq_some_iff.mp taken
    exact xQueueSend_effect found
  | finish index =>
    obtain ⟨finish, _, rfl⟩ := Option.map_eq_some_iff.mp taken
    exact finish_effect index finish
  | receive =>
    rw [step] at taken
    split at taken <;> cases taken
    next waiting queue => exact receive_effect waiting queue
  | sendFrame accepted =>
    rw [step] at taken
    split at taken <;> cases taken
    next received => exact sendFrame_effect received accepted
  | append =>
    rw [step] at taken
    split at taken <;> cases taken
    next ticket sent => exact append_effect sent
  | incrementDropCount =>
    rw [step] at taken
    split at taken <;> cases taken
    · exact .onward LoggerAction.noConfusion _ .waiting s.live rfl (by simp [LoggerTask.unsent]) (List.nil_sublist _)
    · exact .onward LoggerAction.noConfusion _ (.appended _) s.live rfl (by simp [LoggerTask.unsent]) (List.nil_sublist _)
  | countSent =>
    rw [step] at taken
    split at taken <;> cases taken
    exact .onward LoggerAction.noConfusion _ .waiting s.live rfl (by simp [LoggerTask.unsent]) (List.nil_sublist _)
  | eraseLogArea =>
    rw [step] at taken
    split at taken <;> cases taken
    exact eraseLogArea_effect
  | setNextSeq =>
    rw [step] at taken
    split at taken <;> cases taken
    next begun => exact .reset rfl begun rfl rfl

theorem step_moves (taken : s.step action = some t) (inTurn : s.InTurn action) :
    Moves action s t s.dequeuedLane t.dequeuedLane ∧ Moves action s t s.storedLane t.storedLane := by
  cases step_effect taken with
  | call _ kept moves =>
    have ahead : t.dequeued = s.dequeued ∧ t.stored = s.stored ∧ t.task = s.task := by
      rw [kept]
      exact ⟨rfl, rfl, rfl⟩
    rw [dequeuedLane, dequeuedLane, storedLane, storedLane, ahead.1, ahead.2.1, ahead.2.2]
    exact ⟨(moves inTurn).behind _, (moves inTurn).behind _⟩
  | task _ received kept counter queue _ stored =>
    have others : t.dequeued = s.dequeued ++ received ∧ t.numbered = s.numbered ∧ t.logged = s.logged := by
      rw [kept]
      exact ⟨rfl, rfl, rfl⟩
    obtain ⟨dequeued, numbered, logged⟩ := others
    have upcoming : s.upcoming = received ++ t.upcoming := by
      rw [LoggerSystem.upcoming, LoggerSystem.upcoming, queue, numbered, List.append_assoc]
    refine ⟨.kept ?_ logged counter, .kept ?_ logged counter⟩
    · rw [dequeuedLane, dequeuedLane, dequeued, upcoming, List.append_assoc]
    · rw [storedLane, storedLane, upcoming, ← List.append_assoc]
      exact stored.append_right _
  | erased _ kept stored =>
    have others : t.dequeuedLane = s.dequeuedLane ∧ t.task.pending ++ t.upcoming = s.task.pending ++ s.upcoming ∧
        t.logged = s.logged ∧ t.logger = s.logger := by
      rw [kept]
      exact ⟨rfl, rfl, rfl, rfl⟩
    obtain ⟨dequeued, waiting, logged, logger⟩ := others
    refine ⟨.kept (by rw [dequeued]) logged (by rw [logger]), .kept ?_ logged (by rw [logger])⟩
    rw [storedLane, storedLane, List.append_assoc, List.append_assoc, waiting]
    exact stored.append_right _
  | reset command _ kept counter =>
    have others : t.dequeuedLane = s.dequeuedLane ∧ t.storedLane = s.storedLane ∧ t.logged = s.logged := by
      rw [kept]
      exact ⟨rfl, rfl, rfl⟩
    exact ⟨.reset command others.1 others.2.2 counter, .reset command others.2.1 others.2.2 counter⟩

/-- What reached the UART and the flash came from the queue, in that order. -/
structure Flow (s : LoggerSystem) : Prop where
  live : (s.live ++ s.task.unsent).Sublist s.dequeued
  stored : (s.stored ++ s.task.pending).Sublist s.dequeued

theorem step_flow (flow : s.Flow) (taken : s.step action = some t) : t.Flow := by
  obtain ⟨live, stored⟩ := flow
  cases step_effect taken with
  | call _ kept _ =>
    rw [kept]
    exact ⟨live, stored⟩
  | task _ received kept _ _ passed appended =>
    have dequeued : t.dequeued = s.dequeued ++ received := by rw [kept]
    refine ⟨?_, ?_⟩
    · rw [dequeued]
      exact passed.trans (live.append_right received)
    · rw [dequeued]
      exact appended.trans (stored.append_right received)
  | erased _ kept fewer =>
    have others : t.live = s.live ∧ t.task = s.task ∧ t.dequeued = s.dequeued := by
      rw [kept]
      exact ⟨rfl, rfl, rfl⟩
    obtain ⟨sameLive, task, dequeued⟩ := others
    refine ⟨?_, ?_⟩
    · rw [sameLive, task, dequeued]
      exact live
    · rw [task, dequeued]
      exact (fewer.append_right _).trans stored
  | reset _ _ kept _ =>
    rw [kept]
    exact ⟨live, stored⟩

theorem step_command (taken : s.step action = some t) :
    (action ≠ .setNextSeq → t.erases = s.erases) ∧
      (action ≠ .eraseLogArea → s.command = .idle → t.command = .idle ∧ action ≠ .setNextSeq) := by
  cases step_effect taken with
  | call goes kept _ =>
    rw [kept]
    exact ⟨fun _ => rfl, fun _ idle => ⟨idle, goes⟩⟩
  | task goes _ kept =>
    rw [kept]
    exact ⟨fun _ => rfl, fun _ idle => ⟨idle, goes⟩⟩
  | erased command kept _ =>
    refine ⟨fun _ => by rw [kept], fun other => absurd command other⟩
  | reset command begun kept _ =>
    refine ⟨fun other => absurd command other, fun _ idle => ?_⟩
    rw [begun] at idle
    cases idle

/-- One step carries the numbering of a lane along. -/
theorem Moves.lane {before after : List Ticket} (moves : Moves action s t before after) {first : UInt32} {base : Nat}
    (lane : Lane before s.logged s.logger.seq first base) (goes : action ≠ .setNextSeq) :
    Lane after t.logged t.logger.seq first base := by
  cases moves with
  | drawn ticket number seq place logged counter =>
    rw [place, logged, counter]
    exact lane.push number seq
  | kept part logged counter =>
    rw [logged, counter]
    exact lane.sublist part
  | reset command => exact absurd command goes

/-- Without an erase, and as long as every send that the queue takes is of the oldest
number drawn and not yet sent, the events taken from the queue, those accepted by the UART and those stored
are in sequence order. -/
theorem queue_in_seq_order (seq : UInt32) (queueLength : Nat) (storage : FlashLogStorage) {s : LoggerSystem}
    (reached : Machine.Reach step (fun s action => s.InTurn action ∧ Unerased action) (start seq queueLength storage) s) :
    InSeqOrder s.dequeued ∧ InSeqOrder s.live ∧ InSeqOrder s.stored := by
  obtain ⟨lane, flow, _⟩ : Lane s.dequeuedLane s.logged s.logger.seq seq 0 ∧ s.Flow ∧ s.command = .idle := by
    refine reached.invariant (fun s => Lane s.dequeuedLane s.logged s.logger.seq seq 0 ∧ s.Flow ∧ s.command = .idle) ?_ ?_
    · exact ⟨⟨List.Pairwise.nil, List.forall_mem_nil _, Nat.le_refl _, (add_zero seq).symm⟩, ⟨.slnil, .slnil⟩, rfl⟩
    · rintro s t action ⟨lane, flow, idle⟩ ⟨inTurn, unerased⟩ taken
      obtain ⟨still, goes⟩ := (step_command taken).2 unerased idle
      exact ⟨(step_moves taken inTurn).1.lane lane goes, step_flow flow taken, still⟩
  have order : InSeqOrder s.dequeued := (lane.sublist (List.sublist_append_left _ _)).inSeqOrder
  exact ⟨order, List.Pairwise.sublist ((List.sublist_append_left _ _).trans flow.live) order,
    List.Pairwise.sublist ((List.sublist_append_left _ _).trans flow.stored) order⟩

def emptyRequest : LogRequest where
  level := LogLevel.INFO
  eventId := EventId.TEXT_LOG
  data := none
  len := 0

def orderedCalls : List LoggerAction :=
  [.log emptyRequest false, .makeEvent 0 0, .xQueueSend 0, .receive, .sendFrame false, .log emptyRequest true,
    .makeEvent 0 0, .incrementDropCount, .xQueueSend 0, .receive]

theorem queue_in_seq_order_two :
    ∃ s, Machine.run step (start 0xFFFFFFFF 32 (blankStorage ⟨0, 8192⟩)) orderedCalls = some s ∧
      s.dequeued.map (fun ticket => ticket.record.seq) = [0xFFFFFFFF, 0] ∧ InSeqOrder s.dequeued := by
  obtain ⟨s, ran, seqs⟩ : ∃ s, Machine.run step (start 0xFFFFFFFF 32 (blankStorage ⟨0, 8192⟩)) orderedCalls = some s ∧
      s.dequeued.map (fun ticket => ticket.record.seq) = [0xFFFFFFFF, 0] := by
    have short : emptyRequest.len.toNat = 0 := rfl
    simp [orderedCalls, Machine.run, step, start, makeEvent, short, xQueueSend, EventLogger.nextSeq, EventLogger.new]
    exact ⟨rfl, rfl⟩
  refine ⟨s, ran, seqs, (queue_in_seq_order 0xFFFFFFFF 32 (blankStorage ⟨0, 8192⟩) (.run .start ?_ ran)).1⟩
  rintro front action rest same _ _
  have member : action ∈ orderedCalls := by rw [same]; exact List.mem_append_right _ (.head _)
  refine ⟨?_, ?_⟩
  · rintro index rfl _
    simpa [orderedCalls] using member
  · rintro rfl
    simp [orderedCalls] at member

/-- Two tasks draw 0 and 1; the second is first to send. -/
def swappedCalls : List LoggerAction :=
  [.log emptyRequest false, .log emptyRequest false, .makeEvent 0 0, .makeEvent 0 0, .xQueueSend 1, .receive,
    .sendFrame true, .append, .countSent, .xQueueSend 0, .receive]

/-- The events leave the queue as 1 and 0. -/
theorem queue_swaps_seqs :
    ¬ ∀ s, Machine.Reach step (fun _ action => Unerased action)
        (start 0 32 ((blankStorage ⟨0, 8192⟩).init true).2) s → InSeqOrder s.dequeued := by
  intro claimed
  obtain ⟨t, started, _, works, represents, _, _⟩ := init_erased (s := blankStorage ⟨0, 8192⟩) (by decide)
    (blankStorage_working _) (blankStorage_erased _)
  rw [started] at claimed
  obtain ⟨u, appended, _⟩ := represents.append_refines works (emptyRequest.event (by decide) 1 0)
  obtain ⟨s, ran, order⟩ : ∃ s, Machine.run step (start 0 32 t) swappedCalls = some s ∧
      s.dequeued.map Ticket.number = [1, 0] := by
    have short : emptyRequest.len.toNat = 0 := rfl
    simp [swappedCalls, Machine.run, step, start, makeEvent, short, xQueueSend, EventLogger.nextSeq, EventLogger.new,
      appended]
  have reached : Machine.Reach step (fun _ action => Unerased action) (start 0 32 t) s := by
    refine .run .start ?_ ran
    rintro front action rest same _ _ rfl
    have member : .eraseLogArea ∈ swappedCalls := by rw [same]; exact List.mem_append_right _ (.head _)
    simp [swappedCalls] at member
  have inOrder : (s.dequeued.map Ticket.number).Pairwise (· < ·) := List.pairwise_map.mpr ((claimed s reached).imp And.left)
  rw [order] at inOrder
  exact absurd inOrder (by decide)

end LoggerSystem

end PicoWLogger
