import PicoWLogger.Proofs.EraseOutcome
import PicoWLogger.Proofs.SequenceOrder
import PicoWLogger.Proofs.RingIndex

/-! The erase command among the loggers. The area is erased in one critical region and the
counter reset in another; the numbers stored since are in order when nothing with an old number
is under way at the reset. -/

namespace PicoWLogger
open FlashLogStorage

namespace FlashLogStorage
open FlashDriver
variable {s : FlashLogStorage}

/-- On a working log the command `e` succeeds and leaves the empty ring. -/
theorem eraseLogArea_working (config : isConfigValid s.config = true) (working : s.Working)
    (initialized : s.initialized = true) (locked : s.mutexCreated = true) :
    ∃ t, s.eraseLogArea = (true, t) ∧ t.config = s.config ∧ t.Working ∧ Represents t (.fresh s.config) := by
  obtain ⟨flash, sharedIo, outcome, responds, supplied⟩ := eraseLogArea_outcome config initialized locked
  obtain ⟨power, blanked⟩ := supplied working.flash.power
  have answers := responds working.responsive
  have answered : Answered s.sharedIo s.flash.polls s.config.sectors := by
    rw [working.sharedIo, working.flash.polls]
    exact fun _ _ => ⟨rfl, rfl, rfl⟩
  rw [sectorsErased_answered answered] at blanked
  have area := (Config.shape config).2.1
  cases outcome with
  | erased _ same =>
    refine ⟨_, same, rfl, ⟨⟨answers.flash, power⟩, answers.sharedIo⟩, represents_fresh config initialized locked ?_ rfl⟩
    intro a low high
    exact (blanked a).trans (if_pos ⟨low, area ▸ high⟩)
  | stopped failed => exact absurd answered failed

end FlashLogStorage

namespace LoggerSystem
variable {s t : LoggerSystem} {action : LoggerAction}

/-- The events stored since the last erase and those that may follow are numbered by one
counter, which started from zero when there was an erase. -/
def Renumbered (s : LoggerSystem) : Prop :=
  ∃ first base, Lane s.storedLane s.logged s.logger.seq first base ∧ (0 < s.erases → first = 0)

theorem step_renumbered (renumbered : s.Renumbered) (inTurn : s.InTurn action) (drained : s.Drained action)
    (taken : s.step action = some t) : t.Renumbered := by
  obtain ⟨first, base, lane, zero⟩ := renumbered
  by_cases resets : action = .setNextSeq
  · obtain ⟨numbered, queue, pending, stored⟩ := drained resets
    subst resets
    rw [step] at taken
    split at taken <;> cases taken
    refine ⟨0, s.logged, ?_, fun _ => rfl⟩
    have empty : s.storedLane = [] := by simp [storedLane, upcoming, numbered, queue, pending, stored]
    change Lane s.storedLane s.logged 0 0 s.logged
    rw [empty]
    exact Lane.restart s.logged
  · have moves := (step_moves taken inTurn).2
    refine ⟨first, base, moves.lane lane resets, ?_⟩
    rw [(step_command taken).1 resets]
    exact zero

/-- The erase restarts the numbering: when at each reset of the counter no event with an
old number is under way or stored, and every send that the queue takes is of the oldest number, then after
an erase command the numbers stored since are strictly increasing. -/
theorem stored_since_erase_increasing (seq : UInt32) (queueLength : Nat) (storage : FlashLogStorage) {s : LoggerSystem}
    (reached : Machine.Reach step (fun s action => s.InTurn action ∧ s.Drained action) (start seq queueLength storage) s)
    (few : s.logged < 2 ^ 31) (erased : 0 < s.erases) :
    (s.stored.map fun ticket => ticket.record.seq.toNat).Pairwise (· < ·) := by
  obtain ⟨first, base, lane, zero⟩ : s.Renumbered := by
    refine reached.invariant Renumbered ⟨seq, 0, ⟨.nil, List.forall_mem_nil _, Nat.le_refl _, ?_⟩, nofun⟩ ?_
    · exact (add_zero seq).symm
    · exact fun renumbered met taken => step_renumbered renumbered met.1 met.2 taken
  have stored : s.stored.Sublist s.storedLane := (List.sublist_append_left _ _).trans (List.sublist_append_left _ _)
  have lane := lane.sublist stored
  rw [zero erased] at lane
  exact lane.increasing few

def storedCall : List LoggerAction :=
  [.log emptyRequest false, .makeEvent 0 0, .xQueueSend 0, .receive, .sendFrame true, .append, .countSent]

/-- A call that has its number is the only one under way, and no event waits. -/
structure Lone (s : LoggerSystem) (ticket : Ticket) : Prop where
  numbered : s.numbered = [(ticket, false)]
  queue : s.queue = []
  room : 0 < s.queueLength
  task : s.task = .waiting

/-- The rest of the call stores the event and counts it. -/
theorem run_lone {ticket : Ticket} {storage : FlashLogStorage} (lone : s.Lone ticket)
    (appended : s.storage.append ticket.record.frame = (true, storage)) :
    Machine.run step s [.xQueueSend 0, .receive, .sendFrame true, .append, .countSent] = some { s with
      logger := s.logger.countSent ticket.record.size, numbered := [], finishing := s.finishing ++ [.counted false]
      storage, dequeued := s.dequeued ++ [ticket], live := s.live ++ [ticket], stored := s.stored ++ [ticket] } := by
  obtain ⟨numbered, queue, room, task⟩ := lone
  simp [Machine.run, step, xQueueSend, putsFrame, numbered, queue, room, task, appended]

/-- No call is under way, and the logger task waits for an event. -/
structure Unoccupied (s : LoggerSystem) : Prop where
  entered : s.entered = []
  numbered : s.numbered = []
  queue : s.queue = []
  room : 0 < s.queueLength
  task : s.task = .waiting

theorem run_storedCall {storage : FlashLogStorage} (free : s.Unoccupied)
    (appended : s.storage.append (emptyRequest.event (by decide) s.logger.seq 0).val.frame = (true, storage)) :
    ∃ t, Machine.run step s storedCall = some t ∧ t.Unoccupied ∧ t.storage = storage ∧ t.logger.seq = s.logger.seq + 1 ∧
      t.logged = s.logged + 1 ∧ t.erases = s.erases ∧
      t.stored = s.stored ++ [⟨s.logged, emptyRequest.event (by decide) s.logger.seq 0⟩] := by
  have short : emptyRequest.len.toNat = 0 := rfl
  obtain ⟨middle, isMiddle⟩ : ∃ middle, middle = { s with
      logger := s.logger.nextSeq.2, numbered := [(⟨s.logged, emptyRequest.event (by decide) s.logger.seq 0⟩, false)]
      logged := s.logged + 1 } := ⟨_, rfl⟩
  have made : Machine.run step s [.log emptyRequest false, .makeEvent 0 0] = some middle := by
    simp [isMiddle, Machine.run, step, makeEvent, short, free.entered, free.numbered, EventLogger.nextSeq]
  have begun : Machine.run step s storedCall =
      Machine.run step middle [.xQueueSend 0, .receive, .sendFrame true, .append, .countSent] := by
    have split : storedCall = [.log emptyRequest false, .makeEvent 0 0] ++
        [.xQueueSend 0, .receive, .sendFrame true, .append, .countSent] := rfl
    rw [split, Machine.run_append, made, Option.bind_some]
  subst isMiddle
  exact ⟨_, begun.trans (run_lone ⟨rfl, free.queue, free.room, free.task⟩ appended),
    ⟨free.entered, rfl, free.queue, free.room, free.task⟩, rfl, rfl, rfl, rfl, rfl⟩

/-- The log is erased while nothing is under way, then two events are stored. -/
theorem stored_since_erase_increasing_clean :
    ∃ s, Machine.run step (start 5 32 ((blankStorage ⟨0, 8192⟩).init true).2)
        ([.eraseLogArea, .setNextSeq] ++ (storedCall ++ storedCall)) = some s ∧
      s.stored.map (fun ticket => ticket.record.seq) = [0, 1] ∧
      (s.stored.map fun ticket => ticket.record.seq.toNat).Pairwise (· < ·) := by
  obtain ⟨t, started, _, works, represents, _, _⟩ := init_erased (s := blankStorage ⟨0, 8192⟩) (by decide)
    (blankStorage_working _) (blankStorage_erased _)
  rw [started]
  obtain ⟨u, erased, _, worksErased, blank⟩ := eraseLogArea_working represents.imaged.config works represents.initialized
    represents.locked
  obtain ⟨v, appended, _, worksFirst, one⟩ := blank.append_refines worksErased (emptyRequest.event (by decide) 0 0)
  obtain ⟨w, again, _⟩ := one.append_refines worksFirst (emptyRequest.event (by decide) 1 0)
  have reset : Machine.run step (start 5 32 t) [.eraseLogArea, .setNextSeq] = some { start 5 32 t with
      logger := .new 0, storage := u, erases := 1 } := by
    simp [Machine.run, step, start, erased, EventLogger.new, EventLogger.setNextSeq]
  obtain ⟨r, first, free, storage, seq, loggedFirst, erasesFirst, storedFirst⟩ := run_storedCall (s := { start 5 32 t with
    logger := .new 0, storage := u, erases := 1 }) ⟨rfl, rfl, rfl, (by decide : 0 < 32), rfl⟩ appended
  replace seq : r.logger.seq = 1 := seq
  obtain ⟨s, second, _, _, _, logged, erases, stored⟩ := run_storedCall (s := r) free (by rw [storage, seq]; exact again)
  have ran : Machine.run step (start 5 32 t) ([.eraseLogArea, .setNextSeq] ++ (storedCall ++ storedCall)) = some s := by
    rw [Machine.run_append, reset, Option.bind_some, Machine.run_append, first]
    exact second
  have few : s.logged < 2 ^ 31 := by rw [logged, loggedFirst]; exact (by decide : 0 + 1 + 1 < 2 ^ 31)
  have once : 0 < s.erases := by rw [erases, erasesFirst]; exact Nat.one_pos
  have seqs : s.stored.map (fun ticket => ticket.record.seq) = [0, 1] := by rw [stored, storedFirst, seq]; rfl
  refine ⟨s, ran, seqs, stored_since_erase_increasing 5 32 t (.run .start ?_ ran) few once⟩
  intro front action rest same middle reached
  refine ⟨?_, ?_⟩
  · rintro index rfl _
    have member : .xQueueSend index ∈ [.eraseLogArea, .setNextSeq] ++ (storedCall ++ storedCall) := by
      rw [same]
      exact List.mem_append_right _ (.head _)
    simpa [storedCall] using member
  · rintro rfl
    -- The reset is the second action, so the run before it is the erase alone.
    cases front with
    | nil => cases same
    | cons first front =>
      obtain ⟨rfl, behind⟩ := List.cons.inj same
      cases front with
      | nil =>
        simp only [Machine.run, step, start, erased, ↓reduceIte, Option.bind_some, Option.some.injEq] at reached
        rw [← reached]
        exact ⟨rfl, rfl, rfl, rfl⟩
      | cons second front =>
        have later : .setNextSeq ∈ storedCall ++ storedCall := by
          obtain ⟨_, back⟩ : .setNextSeq = second ∧ storedCall ++ storedCall = front ++ .setNextSeq :: rest :=
            List.cons.inj behind
          rw [back]
          exact List.mem_append_right _ (.head _)
        simp [storedCall] at later

/-- A producer is preempted by the erase command between drawing 5 and sending. -/
def staleSend : List LoggerAction :=
  [.log emptyRequest false, .makeEvent 0 0, .eraseLogArea, .setNextSeq, .xQueueSend 0, .receive, .sendFrame true, .append,
    .countSent] ++ storedCall

/-- The frames stored since the erase are numbered 5 and 0. -/
theorem stale_number_stored :
    ¬ ∀ s, Machine.Reach step (fun _ _ => True) (start 5 32 ((blankStorage ⟨0, 8192⟩).init true).2) s →
      s.logged < 2 ^ 31 → 0 < s.erases → (s.stored.map fun ticket => ticket.record.seq.toNat).Pairwise (· < ·) := by
  intro claimed
  obtain ⟨t, started, sameConfig, works, represents, _, _⟩ := init_erased (s := blankStorage ⟨0, 8192⟩) (by decide)
    (blankStorage_working _) (blankStorage_erased _)
  rw [started] at claimed
  obtain ⟨u, erased, _, worksErased, blank⟩ := eraseLogArea_working represents.imaged.config works represents.initialized
    represents.locked
  obtain ⟨v, first, _, worksFirst, one⟩ := blank.append_refines worksErased (emptyRequest.event (by decide) 5 0)
  obtain ⟨w, second, _⟩ := one.append_refines worksFirst (emptyRequest.event (by decide) 0 0)
  -- The send of number 5 meets a log that was erased and a counter that was reset.
  have drawn : Machine.run step (start 5 32 t) [.log emptyRequest false, .makeEvent 0 0, .eraseLogArea, .setNextSeq] =
      some { start 5 32 t with
        logger := .new 0, numbered := [(⟨0, emptyRequest.event (by decide) 5 0⟩, false)]
        storage := u, logged := 1, erases := 1 } := by
    have short : emptyRequest.len.toNat = 0 := rfl
    simp [Machine.run, step, start, makeEvent, short, erased, EventLogger.nextSeq, EventLogger.new, EventLogger.setNextSeq]
  have stale := run_lone (s := { start 5 32 t with
    logger := .new 0, numbered := [(⟨0, emptyRequest.event (by decide) 5 0⟩, false)]
    storage := u, logged := 1, erases := 1 }) ⟨rfl, rfl, (by decide : 0 < 32), rfl⟩ first
  obtain ⟨s, called, _, _, _, logged, erases, stored⟩ := run_storedCall (s := { start 5 32 t with
    logger := .countSent (.new 0) (emptyRequest.event (by decide) 5 0).size, finishing := [.counted false]
    storage := v, logged := 1, erases := 1, dequeued := [⟨0, emptyRequest.event (by decide) 5 0⟩]
    live := [⟨0, emptyRequest.event (by decide) 5 0⟩], stored := [⟨0, emptyRequest.event (by decide) 5 0⟩] })
    ⟨rfl, rfl, rfl, (by decide : 0 < 32), rfl⟩ second
  have ran : Machine.run step (start 5 32 t) staleSend = some s := by
    have split : staleSend = [.log emptyRequest false, .makeEvent 0 0, .eraseLogArea, .setNextSeq] ++
        ([.xQueueSend 0, .receive, .sendFrame true, .append, .countSent] ++ storedCall) := rfl
    rw [split, Machine.run_append, drawn, Option.bind_some, Machine.run_append, stale]
    exact called
  have few : s.logged < 2 ^ 31 := by rw [logged]; exact (by decide : 1 + 1 < 2 ^ 31)
  have once : 0 < s.erases := by rw [erases]; exact Nat.one_pos
  have seqs : s.stored.map (fun ticket => ticket.record.seq.toNat) = [5, 0] := by rw [stored]; rfl
  have increasing := claimed s (.run .start (fun _ _ _ _ _ _ => trivial) ran) few once
  rw [seqs] at increasing
  exact absurd increasing (by decide)

end LoggerSystem

end PicoWLogger
