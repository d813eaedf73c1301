import PicoWLogger.CommandSession
import PicoWLogger.Proofs.Dump
import PicoWLogger.Proofs.EraseNumbering
import PicoWLogger.Proofs.Restart
import PicoWLogger.Proofs.ViewerLoop
import PicoWLogger.Proofs.WireRoundTrip

/-! From the log to the screen: what the viewer shows of the dumps that a console session sends, before and after
a restart. -/

namespace PicoWLogger
open FlashLogStorage CommandTask

/-- A log in order that sends these records, oldest first. -/
structure Dumpable (s : FlashLogStorage) (kept : List Record) : Prop where
  config : isConfigValid s.config = true
  initialized : s.initialized = true
  locked : s.mutexCreated = true
  working : s.Working
  count : s.validFrameCount = kept.length
  all : s.sendFramesOldestFirst.2 = kept.map Record.frame
  latest : ∀ count, (s.sendLatestFrames count).2 = (kept.drop (kept.length - count)).map Record.frame

section Log
variable {s t : FlashLogStorage} {ring : RingLog} {kept : List Record}

theorem Represents.dumpable (represents : Represents s ring) (working : s.Working)
    (distinct : ((ring.live s.config).map fun place => place.2.seq).Nodup) :
    Dumpable s ((ring.live s.config).map Prod.snd) := by
  obtain ⟨all, latest⟩ := represents.dumps distinct
  have frames : ((ring.live s.config).map Prod.snd).map Record.frame =
      (ring.live s.config).map fun place => place.2.frame := by
    rw [List.map_map]
    rfl
  refine ⟨represents.imaged.config, represents.initialized, represents.locked, working, ?_, ?_, fun count => ?_⟩
  · rw [List.length_map, represents.count]
  · rw [all, frames]
  · have skipped : s.validFrameCount - min count s.validFrameCount = (ring.live s.config).length - count := by
      rw [represents.count]
      omega
    rw [latest, skipped, List.length_map, List.map_drop, frames]

theorem sendLoop_congr (sameConfig : t.config = s.config) (sameFlash : t.flash = s.flash)
    (sameNewest : t.newestSeq = s.newestSeq) (sameMutex : t.mutexCreated = s.mutexCreated) (skip addr scanned seen : Nat) :
    t.sendLoop skip addr scanned seen = s.sendLoop skip addr scanned seen := by
  have valid (addr : Nat) : t.isValidFrameAt addr = s.isValidFrameAt addr := by
    simp only [isValidFrameAt, sameConfig, sameFlash]
  have read (addr : Nat) : t.readFrame addr LOG_FRAME_MAX_SIZE = s.readFrame addr LOG_FRAME_MAX_SIZE := by
    simp only [readFrame, lock, valid, sameFlash, sameMutex]
    rfl
  have wrap (addr : Nat) : t.wrapAddress addr = s.wrapAddress addr := by
    simp only [wrapAddress, sameConfig]
  fun_induction sendLoop s skip addr scanned seen with
  | case1 addr scanned seen more header size found missing =>
    rw [sendLoop, if_pos (by rwa [sameConfig]), valid, found]
    simp only
    split
    · rfl
    next frame sent => rw [read, missing] at sent; cases sent
  | case2 addr scanned seen more header size found frame sent here newest =>
    rw [sendLoop, if_pos (by rwa [sameConfig]), valid, found]
    simp only
    split
    next missing => rw [read, sent] at missing; cases missing
    next frame' sent' =>
      rw [read, sent] at sent'
      cases sent'
      rw [sameNewest, if_pos newest]
      rfl
  | case3 addr scanned seen more header size found frame sent here older later ih =>
    rw [sendLoop, if_pos (by rwa [sameConfig]), valid, found]
    simp only
    split
    next missing => rw [read, sent] at missing; cases missing
    next frame' sent' =>
      rw [read, sent] at sent'
      cases sent'
      rw [sameNewest, if_neg older, wrap, ih]
      rfl
  | case4 addr scanned seen more invalid ih =>
    rw [sendLoop, if_pos (by rwa [sameConfig]), valid, invalid]
    simp only
    rw [wrap, ih]
  | case5 addr scanned seen full =>
    rw [sendLoop, if_neg (by rwa [sameConfig])]

theorem Dumpable.moved (dumpable : Dumpable s kept) (sameConfig : t.config = s.config) (sameFlash : t.flash = s.flash)
    (initialized : t.initialized = true) (locked : t.mutexCreated = true) (sharedIo : t.sharedIo = s.sharedIo)
    (count : t.validFrameCount = s.validFrameCount) (oldest : t.oldestAddr = s.oldestAddr)
    (newest : t.newestSeq = s.newestSeq) : Dumpable t kept := by
  have loop := sendLoop_congr sameConfig sameFlash newest (locked.trans dumpable.locked.symm)
  refine ⟨by rw [sameConfig, dumpable.config], initialized, locked, ⟨?_, ?_⟩, count.trans dumpable.count, ?_,
    fun latest => ?_⟩
  · rw [sameFlash]
    exact dumpable.working.flash
  · rw [sharedIo]
    exact dumpable.working.sharedIo
  · rw [← dumpable.all]
    simp only [sendFramesOldestFirst, lock, initialized, locked, dumpable.initialized, dumpable.locked, count, oldest, loop]
  · rw [← dumpable.latest]
    simp only [sendLatestFrames, lock, initialized, locked, dumpable.initialized, dumpable.locked, count, oldest, loop]

/-- After a restart the log sends what it sent before. -/
theorem Dumpable.restart (dumpable : Dumpable s kept) (oldest : s.restart.oldestAddr = s.oldestAddr)
    (newest : s.restart.newestSeq = s.newestSeq) (count : s.restart.validFrameCount = s.validFrameCount) :
    Dumpable s.restart kept := by
  have rebuilt := restart_rebuilds dumpable.config
  refine dumpable.moved (restart_config dumpable.config) (restart_flash dumpable.config) ?_ ?_ ?_ count oldest newest
  all_goals rw [rebuilt, rebuildIndexFromFlash_keeps]; rfl

/-- What an erased log keeps of the records appended to it. -/
def keptRecords (config : Config) (records : List Record) : List Record :=
  (((RingLog.fresh config).appendAll config records).live config).map Prod.snd

/-- Of the records appended to an erased area the log keeps the last, over a restart too. -/
theorem appends_dumpable (config : isConfigValid s.config = true) (working : s.Working) (erased : s.Erased)
    (records : List Record) (ascending : SerialOrder.Ascending (records.map Record.seq)) :
    let running := (s.init true).2.appendAll records
    keptRecords s.config records <:+ records ∧
      ∀ t ∈ [running, running.restart], Dumpable t (keptRecords s.config records) := by
  intro running
  obtain ⟨t, started, sameConfig, works, represents, blank, index⟩ := init_erased config working erased
  rw [← sameConfig] at represents
  have run : running = t.appendAll records := by simp only [running, started]
  obtain ⟨same, runs, related⟩ := represents.appendAll works records
  have ordered := live_ascending represents works (RingLog.live_fresh t.config) ascending
  have suffix := live_suffix represents works (RingLog.live_fresh t.config) records
  obtain ⟨ring, isRing⟩ : ∃ ring, (RingLog.fresh t.config).appendAll t.config records = ring := ⟨_, rfl⟩
  rw [← run] at same runs related
  rw [isRing] at related
  rw [isRing, ← same] at suffix ordered
  have distinct : ((ring.live running.config).map fun place => place.2.seq).Nodup := by
    obtain ⟨base, -, increasing⟩ := ordered.offsets
    refine increasing.imp fun less equal => ?_
    rw [equal] at less
    exact Nat.lt_irrefl _ less
  have dumpable := related.dumpable runs distinct
  have kept : keptRecords s.config records = (ring.live running.config).map Prod.snd := by
    rw [keptRecords, ← sameConfig, isRing, same]
  rw [kept]
  have still : running.restart.oldestAddr = running.oldestAddr ∧ running.restart.newestSeq = running.newestSeq ∧
      running.restart.validFrameCount = running.validFrameCount := by
    cases records using List.reverseRecOn with
    | nil =>
      have nothing : running = t := run
      have validConfig : isConfigValid t.config = true := by rwa [sameConfig]
      have again := rebuild_erased (s := (FlashLogStorage.new t.flash t.config t.sharedIo).started) validConfig blank
      have restarted : t.restart.index = t.index := by
        rw [restart_rebuilds validConfig, again, index, ← sameConfig]
        rfl
      rw [nothing]
      exact ⟨congrArg Index.oldestAddr restarted, congrArg Index.newestSeq restarted,
        congrArg Index.validFrameCount restarted⟩
    | append_singleton records record =>
      have filled := (Represents.append_current t.config ((RingLog.fresh t.config).appendAll t.config records) record).2
      rw [← RingLog.appendAll_concat, isRing] at filled
      have positive := record.size_pos
      have restarted := related.restart_eq (by rw [filled]; split <;> omega) ordered
      exact ⟨congrArg Index.oldestAddr restarted, congrArg Index.newestSeq restarted,
        congrArg Index.validFrameCount restarted⟩
  refine ⟨suffix, List.forall_mem_cons.mpr ⟨dumpable, List.forall_mem_singleton.mpr ?_⟩⟩
  exact dumpable.restart still.1 still.2.1 still.2.2

end Log

namespace CommandTask

/-- What a command shows of what the log holds. -/
def answer {α : Type} (kept : List α) : Command → List α
  | .sendFramesOldestFirst => kept
  | .sendLatestFrames count => kept.drop (kept.length - count.toNat)
  | _ => []

def left {α : Type} (kept : List α) : Command → List α
  | .eraseLogArea => []
  | _ => kept

theorem answer_suffix {α : Type} (kept : List α) (cmd : Command) : answer kept cmd <:+ kept := by
  cases cmd with
  | sendFramesOldestFirst => exact List.suffix_refl _
  | sendLatestFrames count => exact List.drop_suffix _ _
  | printHelp | printStatus | pauseLogGeneration | resumeLogGeneration | eraseLogArea | unknown => exact List.nil_suffix

theorem answer_map {α β : Type} (f : α → β) (kept : List α) (cmd : Command) :
    answer (kept.map f) cmd = (answer kept cmd).map f := by
  cases cmd with
  | sendLatestFrames count => rw [answer, answer, List.length_map, List.map_drop]
  | printHelp | printStatus | pauseLogGeneration | resumeLogGeneration | eraseLogArea | unknown | sendFramesOldestFirst => rfl

def asked {α : Type} : List α → List Command → List α
  | _, [] => []
  | kept, cmd :: rest => answer kept cmd ++ asked (left kept cmd) rest

theorem foldl_left_nil {α : Type} (commands : List Command) : commands.foldl left ([] : List α) = [] := by
  induction commands with
  | nil => rfl
  | cons cmd rest ih =>
    have nothing : left ([] : List α) cmd = [] := by cases cmd <;> rfl
    rw [List.foldl_cons, nothing, ih]

theorem foldl_left {α : Type} {kept : List α} {commands : List Command} (erases : .eraseLogArea ∈ commands) :
    commands.foldl left kept = [] := by
  induction commands generalizing kept with
  | nil => cases erases
  | cons cmd rest ih =>
    rw [List.foldl_cons]
    rcases List.mem_cons.mp erases with now | later
    · rw [← now]
      exact foldl_left_nil rest
    · exact ih later

def CommandLine.commands (line : CommandLine) (input : List UInt8) : List Command :=
  (line.dispatched input).filterMap fun text => text.map command

end CommandTask

namespace CommandContext
variable {ctx : CommandContext} {kept : List Record}

def executeAll (ctx : CommandContext) : List Command → CommandContext × List (List UInt8)
  | [] => (ctx, [])
  | cmd :: rest => ((ctx.execute cmd).1.executeAll rest |>.1, (ctx.execute cmd).2 ++ ((ctx.execute cmd).1.executeAll rest).2)

theorem session_eq (ctx : CommandContext) (line : CommandLine) (input : List UInt8) :
    ctx.session line input = ctx.executeAll (line.commands input) := by
  induction input generalizing ctx line with
  | nil => rfl
  | cons ch rest ih =>
    rw [session, CommandLine.commands, CommandLine.dispatched]
    rcases line.enter ch with ⟨later, _ | _ | text⟩
    · exact ih ctx later
    · exact ih ctx later
    · simp only [ih]
      rfl

/-- What one command does to a log in order. -/
theorem execute_dumpable (dumpable : Dumpable ctx.storage kept) (cmd : Command) :
    let done := ctx.execute cmd
    done.2 = (answer kept cmd).map Record.frame ∧ Dumpable done.1.storage (left kept cmd) ∧
      (cmd ≠ .eraseLogArea → done.1.storage = ctx.storage ∧ done.1.logger = ctx.logger) ∧
      (cmd = .eraseLogArea → done.1.logger = ctx.logger.setNextSeq 0) := by
  cases cmd with
  | printHelp | printStatus | unknown | pauseLogGeneration | resumeLogGeneration =>
    exact ⟨rfl, dumpable, fun _ => ⟨rfl, rfl⟩, nofun⟩
  | sendFramesOldestFirst => exact ⟨dumpable.all, dumpable, fun _ => ⟨rfl, rfl⟩, nofun⟩
  | sendLatestFrames count => exact ⟨dumpable.latest count.toNat, dumpable, fun _ => ⟨rfl, rfl⟩, nofun⟩
  | eraseLogArea =>
    obtain ⟨t, erased, sameConfig, works, represents⟩ :=
      eraseLogArea_working dumpable.config dumpable.working dumpable.initialized dumpable.locked
    have nothing : (RingLog.fresh ctx.storage.config).live t.config = [] := by
      rw [sameConfig]
      exact RingLog.live_fresh _
    have blank := represents.dumpable works (by rw [nothing]; exact List.nodup_nil)
    rw [nothing] at blank
    rw [execute, erased]
    exact ⟨rfl, blank, fun other => absurd rfl other, fun _ => rfl⟩

/-- A session sends the frames of what its commands show. -/
theorem executeAll_dumpable (dumpable : Dumpable ctx.storage kept) (commands : List Command) :
    let done := ctx.executeAll commands
    done.2 = (asked kept commands).map Record.frame ∧ Dumpable done.1.storage (commands.foldl left kept) ∧
      (.eraseLogArea ∉ commands → done.1.storage = ctx.storage ∧ done.1.logger = ctx.logger) ∧
      (.eraseLogArea ∈ commands → done.1.logger = ctx.logger.setNextSeq 0) := by
  induction commands generalizing ctx kept with
  | nil => exact ⟨rfl, dumpable, fun _ => ⟨rfl, rfl⟩, nofun⟩
  | cons cmd rest ih =>
    obtain ⟨sent, next, same, erased⟩ := execute_dumpable dumpable cmd
    obtain ⟨later, last, sameLater, erasedLater⟩ := ih next
    refine ⟨?_, last, fun none' => ?_, fun some' => ?_⟩
    · rw [executeAll, asked, List.map_append, sent, later]
    · obtain ⟨notHere, notLater⟩ := not_or.mp (mt List.mem_cons.mpr none')
      obtain ⟨storage, logger⟩ := same (Ne.symm notHere)
      obtain ⟨storageLater, loggerLater⟩ := sameLater notLater
      exact ⟨storageLater.trans storage, loggerLater.trans logger⟩
    · have here : (ctx.execute cmd).1.logger.setNextSeq 0 = ctx.logger.setNextSeq 0 := by
        by_cases isErase : cmd = .eraseLogArea
        · rw [erased isErase]
          rfl
        · rw [(same isErase).2]
      by_cases again : .eraseLogArea ∈ rest
      · exact (erasedLater again).trans here
      · have now : cmd = .eraseLogArea := ((List.mem_cons.mp some').resolve_right again).symm
        exact (sameLater again).2.trans (erased now)

end CommandContext

namespace LoggerViewer
variable (crc32 : List UInt8 → Nat) (writes : LogFrame → Bool) {reader : ByteReader}

theorem shown_frames {records : List Record} {frames : List LogFrame}
    (matched : List.Forall₂ (fun record frame => Shows record.val frame) records frames) :
    (∀ frame ∈ frames, frame.crcOk = true) ∧ frames.map LogFrame.seq = records.map fun record => record.seq.toNat := by
  induction matched with
  | nil => exact ⟨nofun, rfl⟩
  | cons shows' _ ih =>
    refine ⟨List.forall_mem_cons.mpr ⟨shows'.crcOk, ih.1⟩, ?_⟩
    rw [List.map_cons, List.map_cons, ih.2, shows'.seq]
    rfl

theorem foldl_counted {frames : List LogFrame} {counts : List Nat} (correct : ∀ frame ∈ frames, frame.crcOk = true)
    (numbered : frames.map LogFrame.seq = counts.map (· % 2 ^ 32)) (deliveries : Deliveries counts)
    (unwrapped : ∀ n ∈ counts, n < 2 ^ 32) : Counted (frames.foldl countFrame {}) (missing counts) := by
  cases counts with
  | nil =>
    rw [List.map_eq_nil_iff.mp numbered]
    exact ⟨rfl, rfl, rfl⟩
  | cons n rest =>
    obtain ⟨frame, others, rfl, first, later⟩ := List.map_eq_cons_iff.mp numbered
    have seq : frame.seq = n % 2 ^ 32 := first
    obtain ⟨good, others'⟩ := List.forall_mem_cons.mp correct
    obtain ⟨begun, isBegun⟩ : ∃ begun, countFrame {} frame = begun := ⟨_, rfl⟩
    rw [List.foldl_cons, isBegun, ← Nat.zero_add (missing _)]
    rw [countFrame_first good rfl, seq] at isBegun
    refine counted_unwrapped others' later deliveries (by rw [← isBegun]; exact ⟨rfl, rfl, rfl⟩) (by rw [← isBegun]) ?_
    have last : rest.getLastD n < 2 ^ 32 := by
      rcases rest.eq_nil_or_concat with rfl | ⟨front, m, rfl⟩
      · exact unwrapped n List.mem_cons_self
      · rw [List.concat_eq_append, List.getLastD_concat]
        exact unwrapped m (by simp)
    have := unwrapped n List.mem_cons_self
    omega

theorem receive_counts {records : List Record} {frames : List LogFrame} {later : ByteReader} {stats : Stats} {file : Bool}
    {turns : Nat} (run : receive crc32 writes file 0 turns reader {} = (frames, later, stats))
    (matched : List.Forall₂ (fun record frame => Shows record.val frame) records frames) :
    stats.ok = records.length ∧ stats.crcNg = 0 ∧ ∀ counts : List Nat, records.map Record.seq = counts.map UInt32.ofNat →
      Deliveries counts → (∀ n ∈ counts, n < 2 ^ 32) → Counted stats (missing counts) := by
  obtain ⟨bytes, counted, magics, received⟩ := receive_received crc32 writes file 0 turns run
  obtain ⟨correct, seqs⟩ := shown_frames matched
  have accounts := @frames_account {} frames [] (List.forall_mem_nil _) rfl
  have all : frames.countP LogFrame.crcOk = records.length :=
    (List.countP_eq_length.mpr correct).trans matched.length_eq.symm
  have none' : (frames.countP fun frame => !frame.crcOk) = 0 :=
    List.countP_eq_zero.mpr fun frame member => by simp [correct frame member]
  rw [List.nil_append, all, none'] at accounts
  refine ⟨?_, ?_, fun counts numbered deliveries unwrapped => ?_⟩
  · rw [received.same]
    simpa using accounts.ok
  · rw [received.same]
    exact accounts.crcNg
  · have values : frames.map LogFrame.seq = counts.map (· % 2 ^ 32) := by
      have mapped := congrArg (List.map UInt32.toNat) numbered
      simp only [List.map_map, Function.comp_def, UInt32.toNat_ofNat'] at mapped
      rw [seqs, mapped]
    obtain ⟨gap, late, dup⟩ := foldl_counted correct values deliveries unwrapped
    rw [received.same]
    exact ⟨gap, late, dup⟩

end LoggerViewer

open LoggerViewer

def twoRecords : List Record := shortRecords [7, 10]

private theorem keptRecords_two : keptRecords ⟨0, 8192⟩ twoRecords = twoRecords := by decide +kernel

private theorem ascending_two : SerialOrder.Ascending (twoRecords.map Record.seq) :=
  ⟨[7, 10], rfl, by decide, by decide⟩

/-- The statistics of one dump, with the frames it shows, are the numbers that never got as far as the flash, as long as the
counter has not wrapped. -/
theorem dump_statistics {s : FlashLogStorage} (config : isConfigValid s.config = true) (working : s.Working)
    (erased : s.Erased) (records : List Record) (counts : List Nat)
    (numbered : records.map Record.seq = counts.map UInt32.ofNat) (increasing : counts.Pairwise (· < ·))
    (window : ∀ m ∈ counts, ∀ n ∈ counts, m < n + 2 ^ 31) (unwrapped : ∀ n ∈ counts, n < 2 ^ 32)
    (crc32 : List UInt8 → Nat) (standard : ∀ bytes, crc32 bytes = (Crc32.standard bytes).toNat) :
    let running := (s.init true).2.appendAll records
    let kept := keptRecords s.config records
    let keptCounts := counts.drop (records.length - kept.length)
    kept <:+ records ∧ ∀ storage ∈ [running, running.restart], storage.validFrameCount = kept.length ∧
      ∀ (logger : EventLogger) (logPaused : Bool) (cmd : Command) (file : Bool) (reader : ByteReader) (turns : Nat),
      reader.Delivers (CommandContext.execute ⟨storage, logger, logPaused⟩ cmd).2.flatten → records.length < turns →
        let received := receive crc32 (fun _ => true) file 0 turns reader {}
        List.Forall₂ (fun record frame => Shows record.val frame) (answer kept cmd) received.1 ∧
          received.1.map LogFrame.seq = answer keptCounts cmd ∧
          received.2.2.seqGap = missing (answer keptCounts cmd) ∧ received.2.2.seqLate = 0 ∧ received.2.2.seqDup = 0 := by
  intro running kept keptCounts
  obtain ⟨suffix, dumpable⟩ := appends_dumpable config working erased records ⟨counts, numbered, increasing, window⟩
  refine ⟨suffix, fun storage member => ⟨(dumpable storage member).count,
    fun logger logPaused cmd file reader turns delivers enough => ?_⟩⟩
  obtain ⟨sent, -⟩ :=
    @CommandContext.execute_dumpable ⟨storage, logger, logPaused⟩ _ (dumpable storage member) cmd
  have suffix' : answer keptCounts cmd <:+ counts := (answer_suffix _ cmd).trans (List.drop_suffix _ _)
  rw [sent, ← List.flatMap_def] at delivers
  have less : (answer kept cmd).length < turns :=
    Nat.lt_of_le_of_lt ((answer_suffix _ cmd).trans suffix).length_le enough
  obtain ⟨frames, later, stats, run, matched, -⟩ :=
    receive_frames crc32 _ standard file _ (fun _ _ _ _ => rfl) (Nat.le_of_lt less) {} delivers
  obtain ⟨-, -, counted⟩ := receive_counts crc32 _ run matched
  rw [run]
  have numbers : (answer kept cmd).map Record.seq = (answer keptCounts cmd).map UInt32.ofNat := by
    have last : kept = records.drop (records.length - kept.length) := List.suffix_iff_eq_drop.mp suffix
    rw [← answer_map, ← answer_map, List.map_drop, ← numbered, ← List.map_drop, ← last]
  have small : ∀ n ∈ answer keptCounts cmd, n < 2 ^ 32 := fun n shown => unwrapped n (suffix'.subset shown)
  have deliveries : Deliveries (answer keptCounts cmd) := by
    refine List.Pairwise.isChain ((increasing.sublist suffix'.sublist).imp_of_mem fun {m n} first second less => ⟨less, ?_⟩)
    have near := window n (suffix'.subset second) m (suffix'.subset first)
    omega
  obtain ⟨gap, late, dup⟩ := counted _ numbers deliveries small
  refine ⟨matched, ?_, gap, late, dup⟩
  have values := congrArg (List.map UInt32.toNat) numbers
  rw [List.map_map, List.map_map] at values
  refine ((shown_frames matched).2.trans values).trans ?_
  conv => rhs; rw [← List.map_id (answer keptCounts cmd)]
  exact List.map_congr_left fun n shown => UInt32.toNat_ofNat_of_lt' (small n shown)

/-- The numbers 8 and 9 never reached the flash. -/
theorem dump_statistics_gap :
    let running := ((blankStorage ⟨0, 8192⟩).init true).2.appendAll twoRecords
    ∀ storage ∈ [running, running.restart],
      let sent := (CommandContext.execute ⟨storage, .new 11, true⟩ .sendFramesOldestFirst).2
      let received := receive (fun bytes => (Crc32.calculate bytes).toNat) (fun _ => true) true 0 3
        ⟨sent.flatten, fun _ => 1⟩ {}
      received.1.map LogFrame.seq = [7, 10] ∧ received.2.2.seqGap = 2 := by
  intro running storage member sent received
  obtain ⟨-, counted⟩ := dump_statistics (s := blankStorage ⟨0, 8192⟩) (by decide) (blankStorage_working _)
    (blankStorage_erased _) twoRecords [7, 10] rfl (by decide) (by decide) (by decide)
    (fun bytes => (Crc32.calculate bytes).toNat) fun bytes => congrArg BitVec.toNat (Crc32.toBitVec_calculate bytes)
  have all := (counted storage member).2 (.new 11) true .sendFramesOldestFirst true ⟨sent.flatten, fun _ => 1⟩ 3
    ⟨rfl, fun _ => Nat.one_pos⟩ (by decide)
  rw [show (blankStorage ⟨0, 8192⟩).config = ⟨0, 8192⟩ from rfl, keptRecords_two] at all
  obtain ⟨-, numbers, gap, -⟩ := all
  exact ⟨numbers, gap⟩

end PicoWLogger
