import PicoWLogger.ViewerLoop
import PicoWLogger.Proofs.SeqStats
import PicoWLogger.Proofs.WireRoundTrip

/-! The viewer shows nothing that is not in its stream, and its summary accounts for all it read. The stream, the way it
arrives and the interrupt are arbitrary. -/

namespace PicoWLogger.LoggerViewer
open LittleEndian

/-- The bytes a frame was read from. -/
def LogFrame.wire (frame : LogFrame) : List UInt8 :=
  [MAGIC0, MAGIC1] ++ encode 4 frame.seq ++ encode 2 frame.eventId ++ encode 1 frame.level ++ encode 1 frame.length ++
    encode 4 frame.timestampUs ++ frame.payload ++ encode 4 frame.crcRx

/-- The bytes are those of the frames in their order, with junk between them. -/
inductive CutFrom : List LogFrame → List UInt8 → Prop
  | nil (junk : List UInt8) : CutFrom [] junk
  | cons {frames : List LogFrame} {bytes : List UInt8} (junk : List UInt8) (frame : LogFrame) (later : CutFrom frames bytes) :
      CutFrom (frame :: frames) (junk ++ (frame.wire ++ bytes))

theorem CutFrom.behind {frames : List LogFrame} {bytes : List UInt8} (cut : CutFrom frames bytes) (front : List UInt8) :
    CutFrom frames (front ++ bytes) := by
  cases cut with
  | nil => exact .nil _
  | cons junk frame later =>
    rw [← List.append_assoc]
    exact .cons (front ++ junk) frame later

theorem CutFrom.append {frames frames' : List LogFrame} {bytes bytes' : List UInt8} (cut : CutFrom frames bytes)
    (cut' : CutFrom frames' bytes') : CutFrom (frames ++ frames') (bytes ++ bytes') := by
  induction cut with
  | nil junk => exact cut'.behind junk
  | cons junk frame later ih =>
    rw [List.append_assoc, List.append_assoc]
    exact .cons junk frame ih

section Reading
variable {reader later : ByteReader} {stats stats' : Stats}

theorem readExactLoop_split {n : Nat} {chunks : List UInt8} {result : Option (List UInt8)}
    (read : readExactLoop reader n chunks = (result, later)) (few : chunks.length ≤ n) :
    later.stream <:+ reader.stream ∧
      ∀ data, result = some data → data.length = n ∧ chunks ++ reader.stream = data ++ later.stream := by
  fun_induction readExactLoop reader n chunks with
  | case1 reader chunks more later' nothing =>
    cases read
    rw [ByteReader.read_split nothing]
    exact ⟨List.suffix_append _ _, nofun⟩
  | case2 reader chunks more byte data later' some' ih =>
    have split := ByteReader.read_split some'
    have size : (byte :: data).length ≤ n - chunks.length := by
      have taken := congrArg (fun pair => pair.1.length) some'
      simp only [ByteReader.read, ByteReader.size, List.length_take] at taken
      omega
    obtain ⟨suffix, whole⟩ := ih read (by rw [List.length_append]; omega)
    rw [split]
    refine ⟨suffix.trans (List.suffix_append _ _), fun data' same => ?_⟩
    obtain ⟨length, total⟩ := whole data' same
    exact ⟨length, by rw [← List.append_assoc, total]⟩
  | case3 reader chunks enough =>
    cases read
    refine ⟨List.suffix_refl _, fun data same => ?_⟩
    cases same
    exact ⟨by omega, rfl⟩

theorem readExact_some {n : Nat} {data : List UInt8} (read : readExact reader n = (some data, later)) :
    data.length = n ∧ reader.stream = data ++ later.stream :=
  (readExactLoop_split read (Nat.zero_le n)).2 data rfl

theorem readExact_suffix {n : Nat} {result : Option (List UInt8)} (read : readExact reader n = (result, later)) :
    later.stream <:+ reader.stream :=
  (readExactLoop_split read (Nat.zero_le n)).1

theorem read_single {byte : UInt8} {more : List UInt8} (taken : reader.read 1 = (byte :: more, later)) : more = [] := by
  have length := congrArg (fun pair => pair.1.length) taken
  simp only [ByteReader.read, ByteReader.size, List.length_take, List.length_cons] at length
  exact List.eq_nil_of_length_eq_zero (by omega)

/-- What the search ends with. -/
def magicOf (found : Bool) : List UInt8 := if found then [MAGIC0, MAGIC1] else []

/-- The search counts the junk it passes over and the magic behind it. The byte before it was counted already. -/
theorem syncLoop_split {prev : Option UInt8} {found : Bool} (sync : syncLoop reader stats prev = (found, later, stats')) :
    ∃ junk taken, prev.toList ++ reader.stream = junk ++ (magicOf found ++ later.stream) ∧
      prev.toList.length + taken = (junk ++ magicOf found).length ∧
      stats' = { stats with sync := stats.sync + found.toNat, totalBytes := stats.totalBytes + taken } := by
  fun_induction syncLoop reader stats prev with
  | case1 reader stats prev later' nothing =>
    cases sync
    rw [ByteReader.read_split nothing]
    exact ⟨prev.toList, 0, rfl, by simp [magicOf], rfl⟩
  | case2 reader stats prev byte more later' some' counted magic =>
    cases sync
    rw [ByteReader.read_split some', magic.1, magic.2, read_single some']
    exact ⟨[], 1, rfl, rfl, rfl⟩
  | case3 reader stats prev byte more later' some' counted other ih =>
    obtain ⟨junk, taken, split, size, same⟩ := ih sync
    rw [ByteReader.read_split some', read_single some']
    refine ⟨prev.toList ++ junk, taken + 1, ?_, ?_, ?_⟩
    · rw [List.append_assoc, ← split]
      rfl
    · simp only [Option.toList_some, List.length_append, List.length_singleton] at size ⊢
      omega
    · rw [same, Nat.add_right_comm, Nat.add_assoc stats.totalBytes]

theorem encode_byte (b : UInt8) : encode 1 b.toNat = [b] := by simp [encode]

theorem header_wire {header : List UInt8} (length : header.length = HEADER_LEN) :
    header = encode 4 (u32le (header.take 4)) ++ encode 2 (u16le ((header.drop 4).take 2)) ++
      encode 1 (header.getD 6 0).toNat ++ encode 1 (header.getD 7 0).toNat ++ encode 4 (u32le ((header.drop 8).take 4)) := by
  match header, length with
  | [b0, b1, b2, b3, b4, b5, b6, b7, b8, b9, b10, b11], _ =>
    have seq := encode_decode [b0, b1, b2, b3]
    have eventId := encode_decode [b4, b5]
    have timestamp := encode_decode [b8, b9, b10, b11]
    rw [encode_byte, encode_byte]
    simp only [List.length_cons, List.length_nil, Nat.reduceAdd] at seq eventId timestamp
    simp only [u32le, u16le, List.take, List.drop, seq, eventId, timestamp]
    rfl

theorem LogFrame.wire_parts {header crc : List UInt8} (frame : LogFrame) (twelve : header.length = HEADER_LEN)
    (four : crc.length = CRC_LEN) (seq : frame.seq = u32le (header.take 4))
    (eventId : frame.eventId = u16le ((header.drop 4).take 2)) (level : frame.level = (header.getD 6 0).toNat)
    (length : frame.length = (header.getD 7 0).toNat) (timestampUs : frame.timestampUs = u32le ((header.drop 8).take 4))
    (crcRx : frame.crcRx = u32le crc) : frame.wire = [MAGIC0, MAGIC1] ++ header ++ frame.payload ++ crc := by
  have tail : encode 4 (u32le crc) = crc := by
    have whole := encode_decode crc
    rwa [four] at whole
  rw [wire, seq, eventId, level, length, timestampUs, crcRx, tail]
  conv => rhs; rw [header_wire twelve]
  simp only [List.append_assoc]

variable (crc32 : List UInt8 → Nat)

/-- What `read_frame` shows is the next stretch of the stream, junk apart, and every byte of both is counted. -/
theorem readFrame_some {frame : LogFrame} (read : readFrame crc32 reader stats = (some frame, later, stats')) :
    ∃ junk, reader.stream = junk ++ (frame.wire ++ later.stream) ∧
      stats' = { stats with
        sync := stats.sync + 1
        totalBytes := stats.totalBytes + (junk ++ frame.wire).length } := by
  rw [readFrame] at read
  split at read
  · cases read
  next synced counted sync =>
    obtain ⟨junk, taken, split, size, same⟩ := syncLoop_split sync
    split at read
    · cases read
    next header headed head =>
      obtain ⟨headerLength, headSplit⟩ := readExact_some head
      simp only at read
      split at read
      · cases read
      next payload paid body =>
        obtain ⟨-, bodySplit⟩ := readExact_some body
        split at read
        · cases read
        next crcBytes last tail =>
          obtain ⟨crcLength, tailSplit⟩ := readExact_some tail
          cases read
          have wire (frame : LogFrame) := frame.wire_parts headerLength crcLength
          refine ⟨junk, ?_, ?_⟩
          · rw [wire _ rfl rfl rfl rfl rfl rfl]
            rw [headSplit, bodySplit, tailSplit] at split
            simpa [magicOf] using split
          · rw [wire _ rfl rfl rfl rfl rfl rfl, same]
            simp only [magicOf, if_true, List.length_append, Option.toList_none, List.length_nil] at size ⊢
            have total : stats.totalBytes + taken + header.length + payload.length + crcBytes.length = stats.totalBytes +
                (junk.length + ([MAGIC0, MAGIC1].length + header.length + payload.length + crcBytes.length)) := by
              omega
            rw [total]
            rfl

/-- Without a frame to show, fewer bytes may be counted than were taken. -/
theorem readFrame_none (read : readFrame crc32 reader stats = (none, later, stats')) :
    ∃ lost counted, ∃ magic : Bool, reader.stream = lost ++ later.stream ∧ counted ≤ lost.length ∧
      stats' = { stats with sync := stats.sync + magic.toNat, totalBytes := stats.totalBytes + counted } := by
  rw [readFrame] at read
  split at read
  next synced counted sync =>
    obtain ⟨junk, taken, split, size, same⟩ := syncLoop_split sync
    cases read
    exact ⟨junk, taken, false, by simpa [magicOf] using split, by simp [magicOf] at size; omega, same⟩
  next synced counted sync =>
    obtain ⟨junk, taken, split, size, same⟩ := syncLoop_split sync
    have split' : reader.stream = junk ++ magicOf true ++ synced.stream := by simpa using split
    simp only [Option.toList_none, List.length_nil, Nat.zero_add] at size
    split at read
    next head =>
      obtain ⟨lost, suffix⟩ := readExact_suffix head
      cases read
      refine ⟨junk ++ magicOf true ++ lost, taken, true, ?_, ?_, same⟩
      · rw [split', ← suffix, List.append_assoc _ lost]
      · rw [List.length_append]
        omega
    next header headed head =>
      obtain ⟨headerLength, headSplit⟩ := readExact_some head
      simp only at read
      split at read
      next body =>
        obtain ⟨lost, suffix⟩ := readExact_suffix body
        cases read
        refine ⟨junk ++ magicOf true ++ header ++ lost, taken + header.length, true, ?_, ?_, ?_⟩
        · rw [split', headSplit, ← suffix]
          simp only [List.append_assoc]
        · rw [List.length_append, List.length_append]
          omega
        · rw [same, Nat.add_assoc]
      next payload paid body =>
        obtain ⟨-, bodySplit⟩ := readExact_some body
        split at read
        next tail =>
          obtain ⟨lost, suffix⟩ := readExact_suffix tail
          cases read
          refine ⟨junk ++ magicOf true ++ header ++ payload ++ lost, taken + header.length + payload.length, true,
            ?_, ?_, ?_⟩
          · rw [split', headSplit, bodySplit, ← suffix]
            simp only [List.append_assoc]
          · rw [List.length_append, List.length_append, List.length_append]
            omega
          · rw [same, Nat.add_assoc, Nat.add_assoc, ← Nat.add_assoc taken]
        next => cases read

end Reading

section Numbers
variable {stats : Stats} {frame : LogFrame} {frames : List LogFrame}

/-- How many numbers there are from that of the first frame to the largest. -/
def spread : List LogFrame → Nat
  | [] => 0
  | frame :: rest => rest.foldl (fun top frame => max top (frame.seq + 1)) (frame.seq + 1) - frame.seq

/-- The stretches without a broken frame. -/
def stretches (frames : List LogFrame) : List (List LogFrame) := frames.splitOnP fun frame => !frame.crcOk

/-- Two statistics with the numbers from `low` to `high` between them. -/
structure Covers (stats stats' : Stats) (count low high : Nat) : Prop where
  ok : stats'.ok = stats.ok + count
  crcNg : stats'.crcNg = stats.crcNg
  expected : stats'.expectedSeq = some high
  ordered : low ≤ high
  numbers : stats'.seqGap + stats'.ok + stats.seqDup + stats.seqLate + low =
    stats.seqGap + stats.ok + stats'.seqDup + stats'.seqLate + high

theorem countFrame_covers {expected : Nat} (correct : frame.crcOk = true) (set : stats.expectedSeq = some expected) :
    Covers stats (countFrame stats frame) 1 expected (max expected (frame.seq + 1)) := by
  rcases Nat.lt_trichotomy frame.seq expected with behind | same | ahead
  · by_cases last : frame.seq = expected - 1
    · have top : max expected (frame.seq + 1) = expected := by omega
      have counted : countFrame stats frame = { stats with ok := stats.ok + 1, seqDup := stats.seqDup + 1 } := by
        rw [countFrame, if_pos correct, updateSeqStats]
        simp only [set]
        rw [if_neg (by omega), if_neg (by omega), if_pos last]
      rw [top, counted]
      exact ⟨rfl, rfl, set, Nat.le_refl _, by simp only; omega⟩
    · have top : max expected (frame.seq + 1) = expected := by omega
      rw [top, countFrame_behind correct set (by omega)]
      exact ⟨rfl, rfl, set, Nat.le_refl _, by simp only; omega⟩
  · rw [countFrame_ahead correct set (by omega), Nat.max_eq_right (by omega)]
    exact ⟨rfl, rfl, rfl, by omega, by simp only; omega⟩
  · rw [countFrame_ahead correct set (by omega), Nat.max_eq_right (by omega)]
    exact ⟨rfl, rfl, rfl, by omega, by simp only; omega⟩

theorem foldl_covers {expected : Nat} (correct : ∀ frame ∈ frames, frame.crcOk = true)
    (set : stats.expectedSeq = some expected) :
    Covers stats (frames.foldl countFrame stats) frames.length expected
      (frames.foldl (fun top frame => max top (frame.seq + 1)) expected) := by
  induction frames generalizing stats expected with
  | nil => exact ⟨rfl, rfl, set, Nat.le_refl _, rfl⟩
  | cons frame rest ih =>
    have step := countFrame_covers (correct frame List.mem_cons_self) set
    have later := ih (fun frame member => correct frame (List.mem_cons_of_mem _ member)) step.expected
    rw [List.foldl_cons, List.foldl_cons, List.length_cons]
    refine ⟨?_, later.crcNg.trans step.crcNg, later.expected, step.ordered.trans later.ordered, ?_⟩
    · rw [later.ok, step.ok]
      omega
    · have := step.numbers
      have := later.numbers
      omega

/-- Two statistics with so many correct and broken frames between them, and so many numbers covered. -/
structure Accounts (stats stats' : Stats) (correct broken covered : Nat) : Prop where
  ok : stats'.ok = stats.ok + correct
  crcNg : stats'.crcNg = stats.crcNg + broken
  numbers : stats'.seqGap + stats'.ok + stats.seqDup + stats.seqLate =
    stats.seqGap + stats.ok + stats'.seqDup + stats'.seqLate + covered

theorem Accounts.trans {first middle last : Stats} {correct broken covered correct' broken' covered' : Nat}
    (one : Accounts first middle correct broken covered) (two : Accounts middle last correct' broken' covered') :
    Accounts first last (correct + correct') (broken + broken') (covered + covered') := by
  refine ⟨?_, ?_, ?_⟩
  · rw [two.ok, one.ok, Nat.add_assoc]
  · rw [two.crcNg, one.crcNg, Nat.add_assoc]
  · have := one.numbers
    have := two.numbers
    omega

/-- A stretch of correct frames, counted from the first of them. -/
theorem stretch_accounts (correct : ∀ frame ∈ frames, frame.crcOk = true) (unset : stats.expectedSeq = none) :
    Accounts stats (frames.foldl countFrame stats) frames.length 0 (spread frames) := by
  cases frames with
  | nil => exact ⟨rfl, rfl, rfl⟩
  | cons frame rest =>
    have first := countFrame_first (correct frame List.mem_cons_self) unset
    have covers := @foldl_covers (countFrame stats frame) rest (frame.seq + 1)
      (fun frame member => correct frame (List.mem_cons_of_mem _ member)) (by rw [first])
    rw [List.foldl_cons, List.length_cons, spread]
    refine ⟨?_, ?_, ?_⟩
    · rw [covers.ok, first]
      simp only
      omega
    · rw [covers.crcNg, first]
      rfl
    · have numbers := covers.numbers
      have ordered := covers.ordered
      rw [first] at numbers ⊢
      simp only at numbers
      omega

/-- A broken frame ends a stretch, and the next frame begins another. -/
theorem frames_account (front : List LogFrame) (correct : ∀ frame ∈ front, frame.crcOk = true)
    (unset : stats.expectedSeq = none) :
    Accounts stats ((front ++ frames).foldl countFrame stats) ((front ++ frames).countP LogFrame.crcOk)
      ((front ++ frames).countP fun frame => !frame.crcOk) (((stretches (front ++ frames)).map spread).sum) := by
  induction frames generalizing front stats with
  | nil =>
    have whole : stretches front = [front] := List.splitOnP_eq_singleton fun frame member => by simp [correct frame member]
    have all : front.countP LogFrame.crcOk = front.length := List.countP_eq_length.mpr correct
    have none' : (front.countP fun frame => !frame.crcOk) = 0 :=
      List.countP_eq_zero.mpr fun frame member => by simp [correct frame member]
    rw [List.append_nil, whole, all, none', List.map_singleton, List.sum_singleton]
    exact stretch_accounts correct unset
  | cons frame rest ih =>
    by_cases good : frame.crcOk = true
    · have longer : ∀ other ∈ front ++ [frame], other.crcOk = true := by
        intro other member
        rcases List.mem_append.mp member with earlier | last
        · exact correct other earlier
        · rwa [List.mem_singleton.mp last]
      rw [List.append_cons]
      exact ih (front ++ [frame]) longer unset
    · have broken : (!frame.crcOk) = true := by simp [good]
      have split : stretches (front ++ frame :: rest) = front :: stretches rest :=
        List.splitOnP_append_cons_of_forall_mem (fun other member => by simp [correct other member]) frame broken rest
      have reset : Accounts (front.foldl countFrame stats) (countFrame (front.foldl countFrame stats) frame) 0 1 0 := by
        rw [countFrame, if_neg good]
        exact ⟨rfl, rfl, rfl⟩
      have later := @ih (countFrame (front.foldl countFrame stats) frame) [] (List.forall_mem_nil _) (by rw [countFrame, if_neg good])
      have whole := ((stretch_accounts correct unset).trans reset).trans later
      have all : front.countP LogFrame.crcOk = front.length := List.countP_eq_length.mpr correct
      have none' : (front.countP fun frame => !frame.crcOk) = 0 :=
        List.countP_eq_zero.mpr fun frame member => by simp [correct frame member]
      have one : ((frame :: rest).countP fun frame => !frame.crcOk) = (rest.countP fun frame => !frame.crcOk) + 1 :=
        List.countP_cons_of_pos broken
      rw [split, List.map_cons, List.sum_cons, List.foldl_append, List.foldl_cons, List.countP_append, List.countP_append,
        List.countP_cons_of_neg good, one, all, none', Nat.zero_add, Nat.add_comm _ 1]
      exact whole

end Numbers

section Loop
variable (crc32 : List UInt8 → Nat) (writes : LogFrame → Bool)
variable {reader later : ByteReader} {stats stats' : Stats} {frames : List LogFrame}

theorem countFrame_counters (stats : Stats) (frame : LogFrame) (sync bytes : Nat) :
    countFrame { stats with sync := sync, totalBytes := bytes } frame =
      { countFrame stats frame with sync := sync, totalBytes := bytes } := by
  simp only [countFrame, updateSeqStats]
  repeat' split
  all_goals rfl

theorem countFrame_ok (stats : Stats) (frame : LogFrame) : (countFrame stats frame).ok ≤ stats.ok + 1 := by
  simp only [countFrame, updateSeqStats]
  repeat' split
  all_goals simp

theorem foldl_counters (frames : List LogFrame) (stats : Stats) (sync bytes : Nat) :
    frames.foldl countFrame { stats with sync := sync, totalBytes := bytes } =
      { frames.foldl countFrame stats with sync := sync, totalBytes := bytes } := by
  induction frames generalizing stats with
  | nil => rfl
  | cons frame rest ih => rw [List.foldl_cons, countFrame_counters, ih, List.foldl_cons]

/-- The sum of the lengths of the frames on the line. -/
def wireLength (frames : List LogFrame) : Nat := (frames.map fun frame => frame.wire.length).sum

/-- What some turns of the loop have done: the bytes taken hold the frames counted, and the statistics are those of the
frames, with so many bytes and magics counted. -/
structure Received (bytes : List UInt8) (counted magics : Nat) (reader later : ByteReader) (stats stats' : Stats)
    (frames : List LogFrame) (turns : Nat) : Prop where
  split : reader.stream = bytes ++ later.stream
  cut : CutFrom frames bytes
  least : wireLength frames ≤ counted
  most : counted ≤ bytes.length
  found : frames.length ≤ magics
  tried : magics ≤ turns
  same : stats' = { frames.foldl countFrame stats with
    sync := stats.sync + magics
    totalBytes := stats.totalBytes + counted }

theorem readFrame_missed (read : readFrame crc32 reader stats = (none, later, stats')) :
    ∃ bytes counted magics, Received bytes counted magics reader later stats stats' [] 1 := by
  obtain ⟨lost, counted, magic, split, less, same⟩ := readFrame_none crc32 read
  exact ⟨lost, counted, magic.toNat, split, .nil _, Nat.zero_le _, less, Nat.zero_le _, magic.toNat_le, same⟩

theorem readFrame_shown {frame : LogFrame} (read : readFrame crc32 reader stats = (some frame, later, stats')) :
    ∃ bytes counted magics, Received bytes counted magics reader later stats (countFrame stats' frame) [frame] 1 := by
  obtain ⟨junk, split, same⟩ := readFrame_some crc32 read
  refine ⟨junk ++ frame.wire, (junk ++ frame.wire).length, 1, ?_, ?_, ?_, Nat.le_refl _, Nat.le_refl _, Nat.le_refl _, ?_⟩
  · rw [split, List.append_assoc]
  · simpa using CutFrom.cons junk frame (.nil [])
  · simp [wireLength]
  · rw [same, countFrame_counters]
    rfl

theorem Received.trans {bytes bytes' : List UInt8} {counted counted' magics magics' turns turns' : Nat}
    {middle : ByteReader} {between : Stats} {frames' : List LogFrame}
    (one : Received bytes counted magics reader middle stats between frames turns)
    (two : Received bytes' counted' magics' middle later between stats' frames' turns') :
    Received (bytes ++ bytes') (counted + counted') (magics + magics') reader later stats stats' (frames ++ frames')
      (turns + turns') := by
  refine ⟨?_, one.cut.append two.cut, ?_, ?_, ?_, Nat.add_le_add one.tried two.tried, ?_⟩
  · rw [one.split, two.split, List.append_assoc]
  · rw [wireLength, List.map_append, List.sum_append]
    exact Nat.add_le_add one.least two.least
  · rw [List.length_append]
    exact Nat.add_le_add one.most two.most
  · rw [List.length_append]
    exact Nat.add_le_add one.found two.found
  · rw [two.same, one.same, foldl_counters, List.foldl_append]
    simp only [Nat.add_assoc]

theorem receive_received (file : Bool) (limit turns : Nat)
    (run : receive crc32 writes file limit turns reader stats = (frames, later, stats')) :
    ∃ bytes counted magics, Received bytes counted magics reader later stats stats' frames turns := by
  induction turns generalizing reader stats frames with
  | zero =>
    cases run
    exact ⟨[], 0, 0, rfl, .nil _, Nat.le_refl _, Nat.le_refl _, Nat.le_refl _, Nat.le_refl _, rfl⟩
  | succ turns ih =>
    rw [receive] at run
    split at run
    next middle between read =>
      obtain ⟨bytes, counted, magics, missed⟩ := readFrame_missed crc32 read
      by_cases ends : file = true
      · rw [if_pos ends] at run
        cases run
        exact ⟨bytes, counted, magics, { missed with tried := missed.tried.trans (Nat.le_add_left 1 turns) }⟩
      · rw [if_neg ends] at run
        obtain ⟨bytes', counted', magics', rest⟩ := ih run
        have both := missed.trans rest
        rw [Nat.add_comm 1] at both
        exact ⟨_, _, _, both⟩
    next frame middle between read =>
      obtain ⟨bytes, counted, magics, shown⟩ := readFrame_shown crc32 read
      simp only at run
      split_ifs at run
      · cases run
        exact ⟨bytes, counted, magics, { shown with tried := shown.tried.trans (Nat.le_add_left 1 turns) }⟩
      · cases run
        exact ⟨bytes, counted, magics, { shown with tried := shown.tried.trans (Nat.le_add_left 1 turns) }⟩
      · rcases next : receive crc32 writes file limit turns middle (countFrame between frame) with ⟨others, last, final⟩
        rw [next] at run
        cases run
        obtain ⟨bytes', counted', magics', rest⟩ := ih next
        have both := shown.trans rest
        rw [Nat.add_comm 1] at both
        exact ⟨_, _, _, both⟩

/-- With a number of correct frames to stop at, the loop counts no more of them. -/
theorem receive_limit (file : Bool) {limit turns : Nat} (below : stats.ok < limit)
    (run : receive crc32 writes file limit turns reader stats = (frames, later, stats')) : stats'.ok ≤ limit := by
  induction turns generalizing reader stats frames with
  | zero =>
    cases run
    exact Nat.le_of_lt below
  | succ turns ih =>
    rw [receive] at run
    split at run
    next middle between read =>
      obtain ⟨lost, counted, magic, -, -, same⟩ := readFrame_none crc32 read
      have unchanged : between.ok = stats.ok := by rw [same]
      split at run
      · cases run
        omega
      · exact ih (by omega) run
    next frame middle between read =>
      obtain ⟨junk, -, same⟩ := readFrame_some crc32 read
      have unchanged : between.ok = stats.ok := by rw [same]
      have one := countFrame_ok between frame
      simp only at run
      split_ifs at run with unwritten enough
      · cases run
        omega
      · cases run
        omega
      · rcases next : receive crc32 writes file limit turns middle (countFrame between frame) with ⟨others, last, final⟩
        rw [next] at run
        cases run
        exact ih (by omega) next

/-- What the summary says of the frames counted. -/
structure Summary (reader later : ByteReader) (stats : Stats) (frames : List LogFrame) (limit turns : Nat) : Prop where
  ok : stats.ok = frames.countP LogFrame.crcOk
  crcNg : stats.crcNg = frames.countP fun frame => !frame.crcOk
  numbers : stats.seqGap + stats.ok = stats.seqDup + stats.seqLate + ((stretches frames).map spread).sum
  sync : frames.length ≤ stats.sync ∧ stats.sync ≤ turns
  shown : ∃ bytes, reader.stream = bytes ++ later.stream ∧ CutFrom frames bytes ∧
    wireLength frames ≤ stats.totalBytes ∧ stats.totalBytes ≤ bytes.length
  limit : limit > 0 → stats.ok ≤ limit

/-- The summary accounts for the run: the frames counted lie one behind the other in the bytes taken, which are counted once
each at most, and the numbers covered are those counted, those missing, and not those that came again or late. -/
theorem summary_accounts (file : Bool) (limit turns : Nat) (reader : ByteReader) :
    let (frames, later, stats) := receive crc32 writes file limit turns reader {}
    Summary reader later stats frames limit turns := by
  rcases run : receive crc32 writes file limit turns reader {} with ⟨frames, later, stats⟩
  obtain ⟨bytes, counted, magics, received⟩ := receive_received crc32 writes file limit turns run
  have accounts : Accounts {} stats (frames.countP LogFrame.crcOk) (frames.countP fun frame => !frame.crcOk)
      ((stretches frames).map spread).sum := by
    have counts := @frames_account {} frames [] (List.forall_mem_nil _) rfl
    rw [received.same]
    exact ⟨counts.ok, counts.crcNg, counts.numbers⟩
  have sync : stats.sync = magics := by simp [received.same]
  have total : stats.totalBytes = counted := by simp [received.same]
  refine ⟨?_, ?_, ?_, ?_, ⟨bytes, received.split, received.cut, ?_, ?_⟩,
    fun positive => receive_limit crc32 writes file positive run⟩
  · simpa using accounts.ok
  · simpa using accounts.crcNg
  · have numbers := accounts.numbers
    simp only at numbers
    omega
  · exact sync ▸ ⟨received.found, received.tried⟩
  · exact total ▸ received.least
  · exact total ▸ received.most

/-- Behind the end of the stream nothing is shown, however long a port is asked. -/
theorem receive_end (file : Bool) (turns : Nat) {reader : ByteReader} (stats : Stats) (delivers : reader.Delivers []) :
    ∃ later, receive crc32 writes file 0 turns reader stats = ([], later, stats) ∧ later.stream = [] := by
  induction turns generalizing reader with
  | zero => exact ⟨reader, rfl, delivers.stream⟩
  | succ turns ih =>
    obtain ⟨later, missed, delivers⟩ := readFrame_end crc32 stats delivers
    rw [receive, missed]
    cases file with
    | true => exact ⟨later, rfl, delivers.stream⟩
    | false => exact ih delivers

/-- Of a stream of frames the viewer shows all of the events, as long as their rows are written. -/
theorem receive_frames (standard : ∀ bytes, crc32 bytes = (Crc32.standard bytes).toNat) (file : Bool) (records : List Record)
    (written : ∀ record ∈ records, ∀ frame, Shows record.val frame → writes frame = true) {turns : Nat}
    (enough : records.length ≤ turns) {reader : ByteReader} (stats : Stats)
    (delivers : reader.Delivers (records.flatMap Record.frame)) :
    ∃ frames later stats', receive crc32 writes file 0 turns reader stats = (frames, later, stats') ∧
      List.Forall₂ (fun record frame => Shows record.val frame) records frames ∧ later.stream = [] := by
  induction records generalizing reader stats turns with
  | nil =>
    obtain ⟨later, run, ends⟩ := receive_end crc32 writes file turns stats delivers
    exact ⟨[], later, stats, run, .nil, ends⟩
  | cons record rest ih =>
    obtain ⟨turns, rfl⟩ := Nat.exists_eq_succ_of_ne_zero (Nat.ne_zero_of_lt enough)
    have bytes : Burst.bytes ⟨[], record, by decide⟩ = record.frame := by
      rw [Burst.bytes, Record.buildFrame]
      rfl
    rw [List.flatMap_cons, ← bytes] at delivers
    obtain ⟨frame, middle, counted, read, shows', delivers⟩ := readFrame_burst crc32 standard _ stats delivers
    obtain ⟨frames, later, last, more, matched, ends⟩ :=
      ih (fun record member => written record (List.mem_cons_of_mem _ member)) (Nat.le_of_succ_le_succ enough)
        (countFrame counted frame) delivers
    refine ⟨frame :: frames, later, last, ?_, .cons shows' matched, ends⟩
    rw [receive, read]
    simp only [written record List.mem_cons_self frame shows', more]
    rfl

end Loop

end PicoWLogger.LoggerViewer
