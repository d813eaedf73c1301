import PicoWLogger.UartTraffic
import PicoWLogger.Proofs.AppendEffect
import PicoWLogger.Proofs.Dump
import PicoWLogger.Proofs.InterruptState
import PicoWLogger.Proofs.TxRing

/-! The byte stream that the two tasks queue: whole frames only, as long as the logger queues
none inside a frame of the dump. -/

namespace PicoWLogger
open FlashLogStorage

namespace FlashLogStorage
variable {s : FlashLogStorage}

theorem readFrame_isFrame (config : isConfigValid s.config = true) {addr size : Nat} {header : LogFrameHeader}
    {frame : List UInt8} (valid : s.isValidFrameAt addr = some (header, size))
    (sent : s.readFrame addr LOG_FRAME_MAX_SIZE = some frame) : Traffic.IsFrame frame := by
  have locked : s.mutexCreated = true := by
    by_contra unlocked
    simp [readFrame, lock, unlocked] at sent
  obtain ⟨_, _, record, _, _, held⟩ := (isValidFrameAt_iff config addr size header).mp valid
  rw [readFrame_valid config locked valid, held] at sent
  exact ⟨record, (Option.some.inj sent).symm⟩

theorem sendLoop_frames (config : isConfigValid s.config = true) (skipCount addr scanned validSeen : Nat) :
    ∀ frame ∈ (s.sendLoop skipCount addr scanned validSeen).2, Traffic.IsFrame frame := by
  have one {skipped : Prop} [Decidable skipped] {frame : List UInt8} (whole : Traffic.IsFrame frame) :
      ∀ sent ∈ if skipped then [frame] else [], Traffic.IsFrame sent := by
    split
    · rwa [List.forall_mem_singleton]
    · exact List.forall_mem_nil _
  fun_induction sendLoop s skipCount addr scanned validSeen with
  | case1 => exact List.forall_mem_nil _
  | case2 addr scanned validSeen more header size valid frame sent here newest =>
    exact one (readFrame_isFrame config valid sent)
  | case3 addr scanned validSeen more header size valid frame sent here older later ih =>
    exact List.forall_mem_append.mpr ⟨one (readFrame_isFrame config valid sent), ih⟩
  | case4 addr scanned validSeen more invalid ih => exact ih
  | case5 => exact List.forall_mem_nil _

theorem dump_frames (config : isConfigValid s.config = true) :
    (∀ frame ∈ s.sendFramesOldestFirst.2, Traffic.IsFrame frame) ∧
      ∀ count, ∀ frame ∈ (s.sendLatestFrames count).2, Traffic.IsFrame frame := by
  refine ⟨?_, fun count => ?_⟩
  · rw [sendFramesOldestFirst]
    repeat' split
    all_goals first | exact List.forall_mem_nil _ | exact sendLoop_frames config _ _ _ _
  · rw [sendLatestFrames]
    repeat' split
    all_goals first | exact List.forall_mem_nil _ | exact sendLoop_frames config _ _ _ _

end FlashLogStorage

namespace Traffic

def sent : DumpState → List UInt8
  | .idle => []
  | .dumping sent _ _ => sent

/-- What the dump has still to do completes the frame it is in and then sends whole frames. -/
def Framing : DumpState → Prop
  | .idle => True
  | .dumping sent rest later => IsFrame (sent ++ rest) ∧ ∀ frame ∈ later, IsFrame frame

structure Framed (s : Traffic) : Prop where
  config : isConfigValid s.storage.config = true
  framing : Framing s.dump
  stream : ∃ frames : List (List UInt8), s.accepted = frames.flatten ++ sent s.dump ∧ ∀ frame ∈ frames, IsFrame frame

theorem framing_next {frames : List (List UInt8)} (whole : ∀ frame ∈ frames, IsFrame frame) :
    Framing (.next frames) ∧ sent (.next frames) = [] := by
  cases frames with
  | nil => exact ⟨trivial, rfl⟩
  | cons frame later =>
    obtain ⟨first, rest⟩ := List.forall_mem_cons.mp whole
    exact ⟨⟨first, rest⟩, rfl⟩

/-- The dump goes on to its later frames. -/
theorem Framed.next {s : Traffic} (framed : s.Framed) (frames : List (List UInt8)) {accepted : List UInt8}
    (stream : ∃ frames : List (List UInt8), accepted = frames.flatten ∧ ∀ frame ∈ frames, IsFrame frame)
    (whole : ∀ frame ∈ frames, IsFrame frame) (uart : UartDma) :
    Framed { s with uart, dump := .next frames, accepted } := by
  obtain ⟨framing, nothing⟩ := framing_next whole
  obtain ⟨sent, put, each⟩ := stream
  refine ⟨framed.config, framing, sent, ?_, each⟩
  rw [nothing, List.append_nil]
  exact put

theorem writeByte_framed {s t : Traffic} (framed : s.Framed) (taken : s.step .writeByteBlocking = some t) : t.Framed := by
  obtain ⟨frames, put, each⟩ := framed.stream
  have framing := framed.framing
  rw [step] at taken
  split at taken
  · next sent later turn dump =>
    cases taken
    rw [dump] at framing put
    refine framed.next later ⟨frames ++ [sent], by simpa [Traffic.sent] using put, ?_⟩ framing.2 s.uart
    exact List.forall_mem_append.mpr ⟨each, List.forall_mem_singleton.mpr (by simpa using framing.1)⟩
  · next sent b rest later turn dump =>
    rw [dump] at framing put
    dsimp only at taken
    split at taken
    · cases taken
      have through : s.accepted ++ [b] = frames.flatten ++ (sent ++ [b]) := by rw [put, List.append_assoc]; rfl
      by_cases last : rest = []
      · rw [if_pos last]
        subst last
        refine framed.next later ⟨frames ++ [sent ++ [b]], by simpa using through, ?_⟩ framing.2 _
        exact List.forall_mem_append.mpr ⟨each, List.forall_mem_singleton.mpr framing.1⟩
      · rw [if_neg last]
        refine ⟨framed.config, ⟨?_, framing.2⟩, frames, through, each⟩
        rw [List.append_assoc]
        exact framing.1
    · cases taken
      exact ⟨framed.config, by rw [dump]; exact framing, frames, by rw [dump]; exact put, each⟩
  · cases taken

/-- A frame is accepted when it is not empty and fits the free space. -/
theorem writeFrame_iff (u : UartDma) (data : ShortBuffer) :
    (u.writeFrame data).1 = true ↔ 0 < data.val.length ∧ data.val.length ≤ u.txFreeSpaceLocked.toNat := by
  have size : (UInt16.ofNat data.val.length).toNat = data.val.length := UInt16.toNat_ofNat_of_lt' data.property
  rw [UartDma.writeFrame]
  split
  · next empty =>
    have none' : data.val.length = 0 := by rw [← size, empty]; rfl
    simp [none']
  · next some' =>
    have positive : 0 < data.val.length := by
      refine Nat.pos_of_ne_zero fun none' => some' ?_
      rw [none']
      rfl
    have more : UInt16.ofNat data.val.length > u.disableInterrupts.txFreeSpaceLocked ↔
        u.txFreeSpaceLocked.toNat < data.val.length := by
      rw [gt_iff_lt, UInt16.lt_iff_toNat_lt, size]
      rfl
    dsimp only
    split
    · next full =>
      simp only [Bool.false_eq_true, false_iff]
      have := more.mp full
      omega
    · next room =>
      simp only [true_iff]
      have := mt more.mpr room
      omega

theorem sendFrame_framed {s t : Traffic} (framed : s.Framed) (apart : s.Apart .sendFrame)
    (taken : s.step .sendFrame = some t) : t.Framed := by
  obtain ⟨frames, put, each⟩ := framed.stream
  rw [step] at taken
  split at taken
  · next record turn logger =>
    dsimp only at taken
    split at taken
    · next accepted =>
      cases taken
      have between : sent s.dump = [] := by
        cases isDump : s.dump with
        | idle => rfl
        | dumping sent rest later =>
          cases sent with
          | nil => rfl
          | cons b sent =>
            have full := apart record rfl logger (by rw [isDump]; rfl)
            obtain ⟨_, fits⟩ := (writeFrame_iff _ _).mp accepted
            rw [Record.buffer, record.length_frame] at fits
            omega
      refine ⟨framed.config, framed.framing, frames ++ [record.frame], ?_, ?_⟩
      · rw [between, List.append_nil] at put ⊢
        rw [put, List.flatten_concat]
      · exact List.forall_mem_append.mpr ⟨each, List.forall_mem_singleton.mpr ⟨record, rfl⟩⟩
    · cases taken
      exact ⟨framed.config, framed.framing, frames, put, each⟩
  · cases taken

theorem step_framed {s t : Traffic} {action : TrafficAction} (framed : s.Framed) (apart : s.Apart action)
    (taken : s.step action = some t) : t.Framed := by
  have stays (uart : UartDma) (logger : LoggerState) (turn : Task) : Framed { s with uart, logger, turn } :=
    ⟨framed.config, framed.framing, framed.stream⟩
  obtain ⟨frames, put, each⟩ := framed.stream
  cases action with
  | sendFramesOldestFirst =>
    rw [step] at taken
    split at taken
    · next turn dump =>
      cases taken
      rw [dump, sent, List.append_nil] at put
      exact framed.next _ ⟨frames, put, each⟩ (dump_frames framed.config).1 s.uart
    · cases taken
  | sendLatestFrames count =>
    rw [step] at taken
    split at taken
    · next turn dump =>
      cases taken
      rw [dump, sent, List.append_nil] at put
      exact framed.next _ ⟨frames, put, each⟩ ((dump_frames framed.config).2 count) s.uart
    · cases taken
  | writeByteBlocking => exact writeByte_framed framed taken
  | receive record =>
    rw [step] at taken
    split at taken <;> cases taken
    exact stays _ _ _
  | sendFrame => exact sendFrame_framed framed apart taken
  | append =>
    rw [step] at taken
    split at taken <;> cases taken
    exact ⟨by rw [(Retains.append _ _).config]; exact framed.config, framed.framing, frames, put, each⟩
  | count =>
    rw [step] at taken
    split at taken <;> cases taken
    all_goals exact stays _ _ _
  | switch task =>
    rw [step] at taken
    split at taken <;> cases taken
    exact stays _ _ _
  | hardware action =>
    obtain ⟨uart, _, rfl⟩ := Option.map_eq_some_iff.mp taken
    exact stays _ _ _

theorem Framed.whole {s : Traffic} (framed : s.Framed) : s.WholeFrames := by
  obtain ⟨frames, put, each⟩ := framed.stream
  have framing := framed.framing
  refine ⟨frames, sent s.dump, put, each, ?_⟩
  cases isDump : s.dump with
  | idle => exact .inl rfl
  | dumping sent rest later =>
    rw [isDump] at framing
    exact .inr ⟨rest, later, rfl, framing.1⟩

/-- In every run in which the logger queues no frame while the dump is inside one, the
accepted bytes are whole frames at every step. -/
theorem stream_whole_frames (uart : UartDma) {storage : FlashLogStorage} (config : isConfigValid storage.config = true)
    {s : Traffic} (reached : Machine.Reach step Apart (start uart storage) s) : s.WholeFrames := by
  have begin' : (start uart storage).Framed := ⟨config, trivial, [], rfl, List.forall_mem_nil _⟩
  exact (reached.invariant Framed begin' fun framed apart taken => step_framed framed apart taken).whole

section Room
variable {first s : Traffic} {n : Nat}

/-- The ring as it is while all that it ever accepted fits in it with `n` bytes more. -/
structure Roomy (s : Traffic) (n : Nat) : Prop where
  kept : UartDma.TxRing.Kept s.uart 8192 s.accepted
  enabled : s.uart.interrupts = true
  room : s.accepted.length + n < 8192

theorem Roomy.free (roomy : s.Roomy n) : n ≤ s.uart.txFreeSpaceLocked.toNat := by
  obtain ⟨done, put, _⟩ := roomy.kept.1.history
  have total := congrArg List.length put
  rw [List.length_append, UartDma.queued, RingBuffer.length_entries] at total
  have size : s.uart.size = 8192 := congrArg UInt32.toNat roomy.kept.1.fixed
  have room := roomy.room
  rw [roomy.kept.1.ring.free, size]
  omega

theorem Roomy.writeByte (roomy : s.Roomy (n + 1)) (b : UInt8) :
    (s.uart.writeByte b).1 = true ∧
      ∀ dump, Roomy { s with uart := (s.uart.writeByte b).2, dump, accepted := s.accepted ++ [b] } n := by
  have accepts : (s.uart.writeByte b).1 = true := by
    have locked : s.uart.disableInterrupts.TxRing 8192 s.accepted := roomy.kept.1.aside false _ _ _
    have free := roomy.free
    rw [roomy.kept.1.ring.free] at free
    rw [UartDma.writeByte]
    refine congrArg Prod.fst (if_neg fun full => ?_)
    have all : s.uart.held + 1 = s.uart.size := locked.full_iff.mp full
    omega
  refine ⟨accepts, fun dump => ⟨?_, (UartDma.writeByte_interrupts _ _).trans roomy.enabled, ?_⟩⟩
  · have kept := UartDma.TxRing.writeByte roomy.kept b
    rwa [if_pos accepts] at kept
  · have room := roomy.room
    simp only [List.length_append, List.length_singleton]
    omega

theorem Roomy.writeFrame {record : Record} (roomy : s.Roomy (record.size + n)) :
    (s.uart.writeFrame record.buffer).1 = true ∧ ∀ logger,
      Roomy { s with uart := (s.uart.writeFrame record.buffer).2, logger, accepted := s.accepted ++ record.frame } n := by
  have fits : record.size ≤ s.uart.txFreeSpaceLocked.toNat := Nat.le_trans (Nat.le_add_right _ _) roomy.free
  have accepts : (s.uart.writeFrame record.buffer).1 = true := by
    rw [writeFrame_iff, Record.buffer, record.length_frame]
    exact ⟨record.size_pos, fits⟩
  refine ⟨accepts, fun logger => ⟨?_, ?_, ?_⟩⟩
  · have kept := UartDma.TxRing.writeFrame roomy.kept record.buffer
    rwa [if_pos accepts] at kept
  · refine (UartDma.writeFrame_interrupts ?_).trans roomy.enabled
    have size : (UInt16.ofNat record.frame.length).toNat = record.size := by
      rw [record.length_frame]
      exact UInt16.toNat_ofNat_of_lt' (Nat.lt_of_le_of_lt record.size_le (by decide))
    have most : ¬ UInt16.ofNat record.frame.length > s.uart.txFreeSpaceLocked := by
      rw [gt_iff_lt, UInt16.lt_iff_toNat_lt, size]
      omega
    simp only [UartDma.dropsEnabled, Record.buffer, most, decide_false, Bool.and_false]
  · have room := roomy.room
    rw [List.length_append, record.length_frame]
    omega

theorem dump_frame (reached : Machine.Reach step Apart first s) (turn : s.turn = .command) {sent rest : List UInt8}
    {later : List (List UInt8)} (inside : s.dump = .dumping sent rest later) (some' : rest ≠ [])
    (roomy : s.Roomy (rest.length + n)) :
    ∃ uart, Machine.Reach step Apart first { s with uart, dump := .next later, accepted := s.accepted ++ rest } ∧
      Roomy { s with uart, dump := .next later, accepted := s.accepted ++ rest } n := by
  induction rest generalizing s sent with
  | nil => exact absurd rfl some'
  | cons b rest ih =>
    rw [List.length_cons, Nat.add_right_comm] at roomy
    obtain ⟨accepts, roomy⟩ := roomy.writeByte b
    have byte : s.step .writeByteBlocking = some { s with
        uart := (s.uart.writeByte b).2
        dump := if rest = [] then .next later else .dumping (sent ++ [b]) rest later
        accepted := s.accepted ++ [b] } := by
      simp only [step, turn, inside, accepts, ↓reduceIte]
    have queued := reached.step (fun _ sending => TrafficAction.noConfusion sending) byte
    by_cases last : rest = []
    · subst last
      exact ⟨_, by simpa using queued, by simpa using roomy (.next later)⟩
    · rw [if_neg last] at queued
      obtain ⟨uart, done, left⟩ := ih queued turn rfl last (roomy _)
      simp only [List.append_assoc, List.singleton_append] at done left
      exact ⟨uart, done, left⟩

end Room

/-- Only a live frame can be queued inside a dumped one. -/
theorem apart_of_ne {s : Traffic} {action : TrafficAction} (other : action ≠ .sendFrame) : s.Apart action :=
  fun _ sending => absurd sending other

/-- The logger takes the processor, queues its frame between two of the dump and waits for the mutex. -/
theorem live_frame {first s : Traffic} {n : Nat} (reached : Machine.Reach step Apart first s) (waiting : s.logger = .waiting)
    {rest : List UInt8} {later : List (List UInt8)} (between : s.dump = .dumping [] rest later) {live : Record}
    (roomy : s.Roomy (live.size + n)) :
    ∃ uart, Machine.Reach step Apart first
        { s with uart, turn := .command, logger := .appending live, accepted := s.accepted ++ live.frame } ∧
      Roomy { s with uart, turn := .command, logger := .appending live, accepted := s.accepted ++ live.frame } n := by
  obtain ⟨accepts, left⟩ := roomy.writeFrame
  obtain ⟨kept, (enabled : (s.uart.writeFrame live.buffer).2.interrupts = true), room⟩ := left (.appending live)
  obtain ⟨after, isAfter⟩ : ∃ after, (s.uart.writeFrame live.buffer).2 = after := ⟨_, rfl⟩
  rw [isAfter] at enabled
  have switched : s.step (.switch .logger) = some { s with turn := .logger } := by
    simp [step, runnable, roomy.enabled]
  have received : Traffic.step { s with turn := .logger } (.receive live) =
      some { s with turn := .logger, logger := .sending live } := by
    simp only [step, waiting]
  have sent : Traffic.step { s with turn := .logger, logger := .sending live } .sendFrame =
      some { s with uart := after, turn := .logger, logger := .appending live, accepted := s.accepted ++ live.frame } := by
    simp only [step, accepts, isAfter, ↓reduceIte]
  have apart : Traffic.Apart { s with turn := .logger, logger := .sending live } .sendFrame := by
    intro _ _ _ inside
    simp only [between, DumpState.midFrame] at inside
    exact absurd inside Bool.false_ne_true
  have resumed : Traffic.step
        { s with uart := after, turn := .logger, logger := .appending live, accepted := s.accepted ++ live.frame }
        (.switch .command) =
      some { s with uart := after, turn := .command, logger := .appending live, accepted := s.accepted ++ live.frame } := by
    simp only [step, runnable, between, enabled, Bool.and_self, ↓reduceIte]
  have switching := reached.step (apart_of_ne TrafficAction.noConfusion) switched
  have receiving := switching.step (apart_of_ne TrafficAction.noConfusion) received
  have sending := receiving.step apart sent
  exact ⟨after, sending.step (apart_of_ne TrafficAction.noConfusion) resumed, isAfter ▸ kept, enabled, room⟩

/-- A live frame where the dump goes from its first frame to its second. -/
theorem live_between {uart : UartDma} {storage : FlashLogStorage} (kept : UartDma.TxRing.Kept uart 8192 [])
    (enabled : uart.interrupts = true) {stored live last : Record}
    (dump : storage.sendFramesOldestFirst.2 = [stored.frame, last.frame])
    (few : stored.size + (live.size + last.size) < 8192) :
    ∃ s, Machine.Reach step Apart (start uart storage) s ∧ s.accepted = stored.frame ++ live.frame ++ last.frame := by
  have some' (record : Record) : record.frame ≠ [] :=
    List.ne_nil_of_length_pos (by rw [record.length_frame]; exact record.size_pos)
  have dumping : (start uart storage).step .sendFramesOldestFirst =
      some { start uart storage with dump := .dumping [] stored.frame [last.frame] } := by
    simp only [step, start, dump, DumpState.next]
  have begun := Machine.Reach.start.step (apart_of_ne TrafficAction.noConfusion) dumping
  obtain ⟨_, front, roomy⟩ := dump_frame (n := live.size + last.size) begun rfl rfl (some' stored)
    ⟨kept, enabled, by rw [stored.length_frame]; simpa [start] using few⟩
  obtain ⟨_, middle, roomy⟩ := live_frame (n := last.size) front rfl rfl roomy
  rw [← last.length_frame] at roomy
  obtain ⟨_, back, _⟩ := dump_frame (n := 0) middle rfl rfl (some' last) roomy
  exact ⟨_, back, rfl⟩

/-- A live frame between two dumped ones. -/
theorem stream_whole_frames_live :
    ∃ s, Machine.Reach step Apart (start (UartDma.new 8192 fun _ => 0)
        (((blankStorage ⟨0, 8192⟩).init true).2.appendAll (shortRecords [0, 1]))) s ∧
      s.accepted = frameBytes (shortRecords [0, 2, 1]) ∧ s.WholeFrames := by
  obtain ⟨area, _, _⟩ := appendAll_oneSector (shortRecords [0, 1]) (by simp [shortRecords])
    (by rw [length_shortRecords]; decide)
  have dump := congrArg Prod.snd (dump_oneSector (shortRecords [0, 1]) (by simp [shortRecords])
    (by rw [length_shortRecords]; decide) (by decide +kernel))
  have kept : UartDma.TxRing.Kept (UartDma.new 8192 fun _ => 0) 8192 [] :=
    UartSystem.start_kept ⟨13, rfl⟩ (by decide) (by decide) _
  have few : (sampleRecord 0 5 five_fits).size +
      ((sampleRecord 2 5 five_fits).size + (sampleRecord 1 5 five_fits).size) < 8192 := by
    simp only [size_sampleRecord]
    decide
  obtain ⟨s, reached, accepted⟩ := live_between kept rfl dump few
  exact ⟨s, reached, by simpa [frameBytes, shortRecords] using accepted,
    stream_whole_frames _ (by rw [area]; decide) reached⟩

/-- A stream of whole frames has the second magic byte behind the first one. -/
private theorem WholeFrames.magic {s : Traffic} (whole : s.WholeFrames) (some' : 2 ≤ s.accepted.length) :
    s.accepted[1]? = some 0x5A := by
  obtain ⟨frames, part, put, each, last⟩ := whole
  cases frames with
  | nil =>
    rw [List.flatten_nil, List.nil_append] at put
    rw [put] at some' ⊢
    rcases last with rfl | ⟨rest, later, _, record, isFrame⟩
    · exact absurd some' (by simp)
    · have inside : (part ++ rest)[1]? = part[1]? := List.getElem?_append_left (by omega)
      rw [← inside, isFrame]
      rfl
  | cons frame frames =>
    obtain ⟨record, rfl⟩ := each frame (.head _)
    have long : 2 ≤ record.frame.length := by rw [record.length_frame]; simp [Record.size]
    rw [put, List.flatten_cons, List.append_assoc, List.getElem?_append_left (by omega)]
    rfl

def storedOne : FlashLogStorage :=
  ((blankStorage ⟨0, 8192⟩).init true).2.appendAll [sampleRecord 0 5 (by decide)]

theorem storedOne_dump : storedOne.sendFramesOldestFirst.2 = [(sampleRecord 0 5 (by decide)).frame] :=
  congrArg Prod.snd (dump_oneSector [sampleRecord 0 5 (by decide)] (by simp) (by decide +kernel) (List.nodup_singleton _))

/-- The logger takes the processor after the first byte of a dumped frame. -/
theorem stream_splits_frame :
    ¬ ∀ s, Machine.Reach step (fun _ _ => True) (start (UartDma.new 8192 fun _ => 0) storedOne) s → s.WholeFrames := by
  intro claimed
  obtain ⟨r, isR⟩ : ∃ r, r = sampleRecord 0 5 (by decide) := ⟨_, rfl⟩
  obtain ⟨storage, isStorage⟩ : ∃ storage, storage = storedOne := ⟨_, rfl⟩
  have dump : storage.sendFramesOldestFirst.2 = [r.frame] := by rw [isStorage, isR]; exact storedOne_dump
  rw [← isStorage] at claimed
  obtain ⟨rest, shape⟩ : ∃ rest, r.frame = 0xA5 :: 0x5A :: rest := ⟨_, rfl⟩
  let fresh := UartDma.new 8192 fun _ => 0
  obtain ⟨queued, isQueued⟩ : ∃ u, u = (fresh.writeByte 0xA5).2 := ⟨_, rfl⟩
  have first : fresh.writeByte 0xA5 = (true, queued) := by
    rw [isQueued]
    exact Prod.ext (by decide +kernel) rfl
  have enabled : queued.interrupts = true := by
    rw [isQueued, UartDma.writeByte_interrupts]
    rfl
  have second : (queued.writeFrame r.buffer).1 = true := by
    have free : queued.txFreeSpaceLocked = 8190 := by rw [isQueued]; decide +kernel
    rw [writeFrame_iff, free, Record.buffer, r.length_frame]
    exact ⟨r.size_pos, Nat.le_trans r.size_le (by decide)⟩
  obtain ⟨s, accepted, reached⟩ : ∃ s : Traffic, s.accepted = [0xA5] ++ r.frame ∧
      Machine.Reach step (fun _ _ => True) (start fresh storage) s := by
    let begun : Traffic := { start fresh storage with dump := .dumping [] r.frame [] }
    let inside (turn : Task) (logger : LoggerState) : Traffic :=
      { uart := queued, storage, dump := .dumping [0xA5] (0x5A :: rest) [], logger, turn, accepted := [0xA5] }
    have dumping : (start fresh storage).step .sendFramesOldestFirst = some begun := by
      simp only [step, start, dump, DumpState.next, begun]
    have queueing : begun.step .writeByteBlocking = some (inside .command .waiting) := by
      simp [step, start, shape, first, begun, inside]
    have preempted : (inside .command .waiting).step (.switch .logger) = some (inside .logger .waiting) := by
      simp [step, runnable, enabled, inside]
    have received : (inside .logger .waiting).step (.receive r) = some (inside .logger (.sending r)) := rfl
    have live : (inside .logger (.sending r)).step .sendFrame =
        some { inside .logger (.appending r) with
          uart := (queued.writeFrame r.buffer).2, accepted := [0xA5] ++ r.frame } := by
      simp only [step, inside, second, ↓reduceIte]
    exact ⟨_, rfl, .step (.step (.step (.step (.step .start trivial dumping) trivial queueing) trivial preempted) trivial
      received) trivial live⟩
  have magic := (claimed s reached).magic (by rw [accepted, shape]; simp)
  rw [accepted, shape] at magic
  cases magic

end Traffic

end PicoWLogger
