import PicoWLogger.Proofs.WireRoundTrip

/-! What a damaged frame costs the viewer. A magic is believed: the header behind it says how many
bytes `read_frame` takes, and none of them is looked at again. -/

namespace PicoWLogger.LoggerViewer
open LittleEndian

/-- How many bytes behind a magic `read_frame` takes for its frame. -/
def bodySize (bytes : List UInt8) : Nat := HEADER_LEN + (bytes.getD 7 0).toNat + CRC_LEN

theorem bodySize_eq (bytes : List UInt8) : bodySize bytes = 12 + (bytes.getD 7 0).toNat + 4 := rfl

/-- The length byte decides, and more bytes behind it do not. -/
theorem bodySize_append {bytes : List UInt8} (headed : 8 ≤ bytes.length) (rest : List UInt8) :
    bodySize (bytes ++ rest) = bodySize bytes := by
  rw [bodySize, List.getD_append _ _ _ _ headed, bodySize]

/-- Whether each magic that the viewer finds in these bytes has its header, payload and CRC in them too. -/
def framesFit : List UInt8 → Bool
  | first :: second :: rest =>
    if first = MAGIC0 ∧ second = MAGIC1 then
      if bodySize rest ≤ rest.length then framesFit (rest.drop (bodySize rest)) else false
    else framesFit (second :: rest)
  | _ => true
termination_by bytes => bytes.length
decreasing_by
  · simp only [List.length_drop, List.length_cons]
    omega
  · simp only [List.length_cons]
    omega

theorem framesFit_magic {junk tail : List UInt8} (clean : ¬ LOG_FRAME_MAGIC <:+: junk) :
    framesFit (junk ++ (LOG_FRAME_MAGIC ++ tail)) =
      if bodySize tail ≤ tail.length then framesFit (tail.drop (bodySize tail)) else false := by
  have isMagic : LOG_FRAME_MAGIC = [MAGIC0, MAGIC1] := rfl
  induction junk with
  | nil =>
    rw [isMagic, List.nil_append, List.cons_append, List.cons_append, framesFit, if_pos ⟨rfl, rfl⟩]
    rfl
  | cons first junk ih =>
    have behind : ¬ LOG_FRAME_MAGIC <:+: junk := fun inside => clean (List.infix_cons inside)
    cases junk with
    | nil =>
      rw [isMagic, List.nil_append, List.cons_append, List.cons_append] at ih
      rw [isMagic, List.cons_append, List.nil_append, List.cons_append, List.cons_append, framesFit,
        if_neg fun both => absurd both.2 (by decide)]
      exact ih behind
    | cons second junk =>
      rw [List.cons_append, List.cons_append, framesFit, if_neg]
      · exact ih behind
      · rintro ⟨rfl, rfl⟩
        exact clean ⟨[], junk, rfl⟩

theorem first_magic (bytes : List UInt8) :
    ¬ LOG_FRAME_MAGIC <:+: bytes ∨
      ∃ junk tail, bytes = junk ++ (LOG_FRAME_MAGIC ++ tail) ∧ ¬ LOG_FRAME_MAGIC <:+: junk := by
  induction bytes with
  | nil => exact .inl (by decide)
  | cons byte bytes ih =>
    by_cases begins : LOG_FRAME_MAGIC <+: byte :: bytes
    · obtain ⟨tail, isMagic⟩ := begins
      exact .inr ⟨[], tail, isMagic.symm, by decide⟩
    · rcases ih with clean | ⟨junk, tail, rfl, clean⟩
      · exact .inl fun inside => (List.infix_cons_iff.mp inside).elim begins clean
      · refine .inr ⟨byte :: junk, tail, rfl, fun inside => ?_⟩
        rcases List.infix_cons_iff.mp inside with front | behind
        · exact begins (front.trans (List.prefix_append (byte :: junk) _))
        · exact clean behind

theorem framesFit_clean {bytes : List UInt8} (clean : ¬ LOG_FRAME_MAGIC <:+: bytes) : framesFit bytes = true := by
  induction bytes with
  | nil => simp [framesFit]
  | cons first bytes ih =>
    have behind : ¬ LOG_FRAME_MAGIC <:+: bytes := fun inside => clean (List.infix_cons inside)
    cases bytes with
    | nil => simp [framesFit]
    | cons second rest =>
      rw [framesFit, if_neg]
      · exact ih behind
      · rintro ⟨rfl, rfl⟩
        exact clean ⟨[], rest, rfl⟩

section Reading
variable {reader : ByteReader} {stream junk tail rest : List UInt8}

theorem readExactLoop_short {n : Nat} (chunks : List UInt8) (short : chunks.length + stream.length < n)
    (delivers : reader.Delivers stream) :
    ∃ later, readExactLoop reader n chunks = (none, later) ∧ later.Delivers [] := by
  induction size : stream.length using Nat.strongRecOn generalizing stream chunks reader with
  | ind size' ih =>
    subst size
    by_cases empty : stream = []
    · subst empty
      obtain ⟨later, taken, delivered⟩ := ByteReader.read_end (n := n - chunks.length) delivers
      refine ⟨later, ?_, delivered⟩
      rw [readExactLoop, if_pos (by omega), taken]
    · obtain ⟨count, next, positive, few, inside, taken, delivered⟩ := ByteReader.read_some
        (n := n - chunks.length) (by omega) empty delivers
      have left := List.length_pos_iff.mpr empty
      have some' : stream.take count ≠ [] := by
        intro none'
        rcases List.take_eq_nil_iff.mp none' with zero | nothing
        · omega
        · exact empty nothing
      obtain ⟨later, missed, done⟩ := ih (stream.drop count).length (by rw [List.length_drop]; omega)
        (chunks ++ stream.take count)
        (by simp only [List.length_append, List.length_take, List.length_drop]; omega) delivered rfl
      exact ⟨later, (readExactLoop_read (by omega) taken some').trans missed, done⟩

theorem readExact_short {n : Nat} (short : stream.length < n) (delivers : reader.Delivers stream) :
    ∃ later, readExact reader n = (none, later) ∧ later.Delivers [] :=
  readExactLoop_short [] (by rw [List.length_nil]; omega) delivers

theorem readExact_take {n : Nat} (enough : n ≤ stream.length) (delivers : reader.Delivers stream) :
    ∃ later, readExact reader n = (some (stream.take n), later) ∧ later.Delivers (stream.drop n) := by
  rw [← List.take_append_drop n stream] at delivers
  exact readExact_delivers (List.length_take_of_le enough) delivers

theorem syncLoop_clean (stats : Stats) (prev : Option UInt8) (clean : ¬ LOG_FRAME_MAGIC <:+: prev.toList ++ stream)
    (delivers : reader.Delivers stream) :
    ∃ later stats', syncLoop reader stats prev = (false, later, stats') ∧ later.Delivers [] := by
  induction stream generalizing reader prev stats with
  | nil =>
    obtain ⟨later, missed, delivered⟩ := syncLoop_end stats prev delivers
    exact ⟨later, stats, missed, delivered⟩
  | cons byte stream ih =>
    obtain ⟨middle, counted, delivered, turn⟩ := syncLoop_byte stats prev delivers
    have differ : ¬ (prev = some MAGIC0 ∧ byte = MAGIC1) := by
      rintro ⟨rfl, rfl⟩
      exact clean ⟨[], stream, rfl⟩
    have suffix : byte :: stream <:+ prev.toList ++ byte :: stream := List.suffix_append _ _
    obtain ⟨later, stats', missed, done⟩ := ih counted (some byte) (fun inside => clean (inside.trans suffix.isInfix)) delivered
    rw [if_neg differ] at turn
    exact ⟨later, stats', turn.trans missed, done⟩

variable (crc32 : List UInt8 → Nat)

theorem readFrame_clean (stats : Stats) (clean : ¬ LOG_FRAME_MAGIC <:+: stream) (delivers : reader.Delivers stream) :
    ∃ later stats', readFrame crc32 reader stats = (none, later, stats') ∧ later.Delivers [] := by
  obtain ⟨later, stats', missed, delivered⟩ := syncLoop_clean stats none clean delivers
  refine ⟨later, stats', ?_, delivered⟩
  rw [readFrame, syncToMagic, missed]

/-- At a magic as many bytes are read as its header says; when they are not there, all that are. -/
theorem readFrame_magic (stats : Stats) (clean : ¬ LOG_FRAME_MAGIC <:+: junk)
    (delivers : reader.Delivers (junk ++ (LOG_FRAME_MAGIC ++ tail))) :
    if bodySize tail ≤ tail.length then
      ∃ frame later stats', readFrame crc32 reader stats = (some frame, later, stats') ∧
        frame.length = (tail.getD 7 0).toNat ∧ later.Delivers (tail.drop (bodySize tail))
    else ∃ later stats', readFrame crc32 reader stats = (none, later, stats') ∧ later.Delivers [] := by
  have isSize := bodySize_eq tail
  obtain ⟨synced, counted, sync, delivers⟩ := syncLoop_junk stats none clean delivers
  -- The stream may end in the header, in the payload or in the CRC.
  by_cases headed : tail.length < HEADER_LEN
  · have tooShort : ¬ bodySize tail ≤ tail.length := by
      simp only [HEADER_LEN] at headed
      omega
    obtain ⟨later, missed, delivered⟩ := readExact_short headed delivers
    rw [if_neg tooShort]
    refine ⟨later, counted, ?_, delivered⟩
    rw [readFrame, syncToMagic, sync]
    simp only [missed]
  · obtain ⟨behind, head, delivers⟩ := readExact_take (Nat.le_of_not_lt headed) delivers
    have length : (tail.take HEADER_LEN).getD 7 0 = tail.getD 7 0 := by
      rw [List.getD_eq_getElem?_getD, List.getD_eq_getElem?_getD, List.getElem?_take_of_lt (by decide : 7 < HEADER_LEN)]
    by_cases paid : (tail.drop HEADER_LEN).length < (tail.getD 7 0).toNat
    · have tooShort : ¬ bodySize tail ≤ tail.length := by
        simp only [List.length_drop, HEADER_LEN] at paid
        omega
      obtain ⟨later, missed, delivered⟩ := readExact_short paid delivers
      rw [if_neg tooShort]
      refine ⟨later, { counted with totalBytes := counted.totalBytes + (tail.take HEADER_LEN).length }, ?_, delivered⟩
      rw [readFrame, syncToMagic, sync]
      simp only [head, length, missed]
    · obtain ⟨summed, body, delivers⟩ := readExact_take (Nat.le_of_not_lt paid) delivers
      rw [List.drop_drop] at delivers
      by_cases checked : (tail.drop (HEADER_LEN + (tail.getD 7 0).toNat)).length < CRC_LEN
      · have tooShort : ¬ bodySize tail ≤ tail.length := by
          simp only [List.length_drop, HEADER_LEN, CRC_LEN] at checked
          omega
        obtain ⟨later, missed, delivered⟩ := readExact_short checked delivers
        rw [if_neg tooShort]
        refine ⟨later, { counted with
          totalBytes := counted.totalBytes + (tail.take HEADER_LEN).length +
            ((tail.drop HEADER_LEN).take (tail.getD 7 0).toNat).length }, ?_, delivered⟩
        rw [readFrame, syncToMagic, sync]
        simp only [head, length, body, missed]
      · have whole : bodySize tail ≤ tail.length := by
          simp only [List.length_drop, HEADER_LEN, CRC_LEN] at checked headed paid
          omega
        obtain ⟨later, last, delivers⟩ := readExact_take (Nat.le_of_not_lt checked) delivers
        rw [List.drop_drop] at delivers
        rw [if_pos whole]
        refine ⟨_, later, _, readFrame_parts crc32 sync head (by rw [length]; exact body) last, ?_, delivers⟩
        rw [length]

end Reading

def sent (records : List Record) : List UInt8 :=
  records.flatMap fun record => (record.val.buildFrame LOG_FRAME_MAX_SIZE).getD []

/-- The frames of these events, each with the bytes behind it when `behind` follows the last. -/
def places (behind : List UInt8) : List Record → List (Record × List UInt8)
  | [] => []
  | record :: rest => (record, sent rest ++ behind) :: places behind rest

/-- The call read the frame at its place. -/
def Reports (place : Record × List UInt8) (call : Option LogFrame × List UInt8) : Prop :=
  ∃ frame, call.1 = some frame ∧ Shows place.1.val frame ∧ call.2 = place.2

def calls (crc32 : List UInt8 → Nat) : Nat → ByteReader → Stats → List (Option LogFrame × List UInt8)
  | 0, _, _ => []
  | count + 1, reader, stats =>
    let (frame, reader, stats) := readFrame crc32 reader stats
    (frame, reader.stream) :: calls crc32 count reader stats

section Calls
variable {crc32 : List UInt8 → Nat} {reader : ByteReader} {behind : List UInt8}

theorem calls_frames (count : Nat) (stats : Stats) :
    (calls crc32 count reader stats).map Prod.fst = readFrames crc32 count reader stats := by
  induction count generalizing reader stats with
  | zero => rfl
  | succ count ih =>
    rw [calls, readFrames, List.map_cons]
    exact congrArg _ (ih _)

theorem calls_succ {count : Nat} {later : ByteReader} {stats stats' : Stats} {frame : Option LogFrame}
    (read : readFrame crc32 reader stats = (frame, later, stats')) :
    calls crc32 (count + 1) reader stats = (frame, later.stream) :: calls crc32 count later stats' := by
  rw [calls, read]

theorem length_sent_cons (record : Record) (rest : List Record) :
    (sent (record :: rest)).length = 18 + record.val.length.toNat + (sent rest).length := by
  have size : record.size = 2 + 12 + record.val.length.toNat + 4 := rfl
  rw [sent, List.flatMap_cons, List.length_append, Record.buildFrame, Option.getD_some, Record.length_frame, ← sent]
  omega

variable (standard : ∀ bytes, crc32 bytes = (Crc32.standard bytes).toNat)
include standard

/-- Junk without a magic and the frame behind it take one call. -/
theorem calls_burst (junk : List UInt8) (clean : ¬ LOG_FRAME_MAGIC <:+: junk) (record : Record) (rest : List Record)
    (stats : Stats) (delivers : reader.Delivers (junk ++ (sent (record :: rest) ++ behind))) :
    ∃ call later stats', Reports (record, sent rest ++ behind) call ∧ later.Delivers (sent rest ++ behind) ∧
      ∀ count, calls crc32 (count + 1) reader stats = call :: calls crc32 count later stats' := by
  have bytes : junk ++ (sent (record :: rest) ++ behind) = (Burst.mk junk record clean).bytes ++ (sent rest ++ behind) := by
    rw [sent, List.flatMap_cons, ← sent]
    simp only [Burst.bytes, List.append_assoc]
  rw [bytes] at delivers
  obtain ⟨frame, later, stats', read, shown, delivered⟩ := readFrame_burst crc32 standard _ stats delivers
  exact ⟨_, later, stats', ⟨frame, rfl, shown, delivered.stream⟩, delivered, fun count => calls_succ read⟩

theorem calls_sent (records : List Record) (stats : Stats) (delivers : reader.Delivers (sent records ++ behind)) :
    ∃ shown later stats', List.Forall₂ Reports (places behind records) shown ∧ later.Delivers behind ∧
      ∀ count, calls crc32 (records.length + count) reader stats = shown ++ calls crc32 count later stats' := by
  induction records generalizing reader stats with
  | nil =>
    refine ⟨[], reader, stats, .nil, delivers, fun count => ?_⟩
    rw [List.length_nil, Nat.zero_add, List.nil_append]
  | cons record rest ih =>
    obtain ⟨call, later, stats', reported, delivered, first⟩ := calls_burst standard [] (by decide) record rest stats delivers
    obtain ⟨shown, last, stats'', all, done, more⟩ := ih stats' delivered
    refine ⟨call :: shown, last, stats'', .cons reported all, done, fun count => ?_⟩
    rw [List.length_cons, Nat.add_right_comm, first, more, List.cons_append]

/-- Behind damaged bytes in which every frame found fits, the frames that follow are read. -/
theorem calls_damaged {bytes : List UInt8} (fits : framesFit bytes = true) (records : List Record) (stats : Stats)
    (delivers : reader.Delivers (bytes ++ sent records)) :
    ∃ count shown, shown.Sublist (calls crc32 count reader stats) ∧ List.Forall₂ Reports (places [] records) shown := by
  induction size : bytes.length using Nat.strongRecOn generalizing bytes reader stats with
  | ind size' ih =>
    subst size
    rcases first_magic bytes with clean | ⟨junk, tail, rfl, clean⟩
    · cases records with
      | nil => exact ⟨0, [], List.nil_sublist _, .nil⟩
      | cons record rest =>
        rw [← List.append_nil (sent (record :: rest))] at delivers
        obtain ⟨call, later, stats', reported, delivered, first⟩ := calls_burst standard bytes clean record rest stats delivers
        obtain ⟨shown, last, stats'', all, _, more⟩ := calls_sent standard rest stats' delivered
        refine ⟨rest.length + 0 + 1, call :: shown, ?_, .cons reported all⟩
        rw [first (rest.length + 0), more]
        exact .cons_cons call (List.sublist_append_left shown _)
    · rw [framesFit_magic clean] at fits
      split at fits
      next whole =>
        have isSize := bodySize_eq tail
        rw [List.append_assoc, List.append_assoc] at delivers
        have read := readFrame_magic crc32 stats clean delivers
        rw [bodySize_append (by omega), if_pos (by rw [List.length_append]; omega),
          List.drop_append_of_le_length whole] at read
        obtain ⟨frame, later, stats', read, _, delivered⟩ := read
        obtain ⟨count, shown, inside, all⟩ := ih _ (by
          simp only [List.length_append, List.length_drop, LOG_FRAME_MAGIC, List.length_cons]
          omega) fits stats' delivered rfl
        refine ⟨count + 1, shown, ?_, all⟩
        rw [calls_succ read]
        exact inside.cons _
      next => cases fits

end Calls

/-- None of the calls that follow reads the frame at this place. -/
def Missed (crc32 : List UInt8 → Nat) (place : Record × List UInt8) (reader : ByteReader) : Prop :=
  ∀ count stats, ∀ call ∈ calls crc32 count reader stats, ¬ Reports place call

section Loss
variable {crc32 : List UInt8 → Nat} {reader : ByteReader} {record : Record} {behind : List UInt8}
  {place : Record × List UInt8}

theorem Missed.call (step : ∀ stats, ∃ frame later stats', readFrame crc32 reader stats = (frame, later, stats') ∧
    ¬ Reports place (frame, later.stream) ∧ Missed crc32 place later) : Missed crc32 place reader := by
  intro count stats
  cases count with
  | zero => exact List.forall_mem_nil _
  | succ count =>
    obtain ⟨frame, later, stats', read, other, missed⟩ := step stats
    rw [calls_succ read]
    exact List.forall_mem_cons.mpr ⟨other, missed count stats'⟩

theorem not_reports_none {left : List UInt8} : ¬ Reports place (none, left) := by
  rintro ⟨frame, isSome, _⟩
  cases isSome

/-- A frame of the right length is not the one at the place when it leaves too much or too little. -/
theorem not_reports_some {frame : LogFrame} {left : List UInt8}
    (differ : frame.length = record.val.length.toNat → left.length ≠ behind.length) :
    ¬ Reports (record, behind) (some frame, left) := by
  rintro ⟨same, isSame, shown, rest⟩
  obtain rfl : frame = same := Option.some.inj isSame
  exact differ shown.length (congrArg List.length rest)

theorem missed_end (delivers : reader.Delivers []) : Missed crc32 place reader := by
  intro count
  induction count generalizing reader with
  | zero => exact fun _ => List.forall_mem_nil _
  | succ count ih =>
    intro stats
    obtain ⟨later, read, delivered⟩ := readFrame_end crc32 stats delivers
    rw [calls_succ read]
    exact List.forall_mem_cons.mpr ⟨not_reports_none, ih delivered stats⟩

theorem missed_short {stream : List UInt8} (short : stream.length < 18 + record.val.length.toNat + behind.length)
    (delivers : reader.Delivers stream) : Missed crc32 (record, behind) reader := by
  induction size : stream.length using Nat.strongRecOn generalizing stream reader with
  | ind size' ih =>
    subst size
    refine Missed.call fun stats => ?_
    rcases first_magic stream with clean | ⟨junk, tail, rfl, clean⟩
    · obtain ⟨later, stats', read, delivered⟩ := readFrame_clean crc32 stats clean delivers
      exact ⟨none, later, stats', read, not_reports_none, missed_end delivered⟩
    · have read := readFrame_magic crc32 stats clean delivers
      have isSize := bodySize_eq tail
      simp only [List.length_append, LOG_FRAME_MAGIC, List.length_cons, List.length_nil] at short ih
      split at read
      next whole =>
        obtain ⟨frame, later, stats', read, length, delivered⟩ := read
        have left : (tail.drop (bodySize tail)).length = tail.length - bodySize tail := List.length_drop
        refine ⟨some frame, later, stats', read, not_reports_some fun same => ?_,
          ih _ (by omega) (by omega) delivered rfl⟩
        rw [delivered.stream]
        omega
      next =>
        obtain ⟨later, stats', read, delivered⟩ := read
        exact ⟨none, later, stats', read, not_reports_none, missed_end delivered⟩

/-- A magic found in damaged bytes takes bytes of the frame that follows. -/
theorem missed_damaged {bytes : List UInt8} (runsOver : framesFit bytes = false) (rest : List Record)
    (delivers : reader.Delivers (bytes ++ sent (record :: rest))) : Missed crc32 (record, sent rest ++ []) reader := by
  have frameSize := length_sent_cons record rest
  rw [List.append_nil]
  induction size : bytes.length using Nat.strongRecOn generalizing bytes reader with
  | ind size' ih =>
    subst size
    refine Missed.call fun stats => ?_
    rcases first_magic bytes with clean | ⟨junk, tail, rfl, clean⟩
    · rw [framesFit_clean clean] at runsOver
      cases runsOver
    · rw [framesFit_magic clean] at runsOver
      rw [List.append_assoc, List.append_assoc] at delivers
      have read := readFrame_magic crc32 stats clean delivers
      have isSize := bodySize_eq tail
      simp only [List.length_append, LOG_FRAME_MAGIC, List.length_cons, List.length_nil] at ih
      by_cases whole : bodySize tail ≤ tail.length
      · rw [if_pos whole] at runsOver
        rw [bodySize_append (by omega), if_pos (by rw [List.length_append]; omega),
          List.drop_append_of_le_length whole] at read
        obtain ⟨frame, later, stats', read, _, delivered⟩ := read
        refine ⟨some frame, later, stats', read, not_reports_some fun _ => ?_,
          ih _ (by rw [List.length_drop]; omega) runsOver delivered rfl⟩
        rw [delivered.stream, List.length_append]
        omega
      · have beyond : tail.length < bodySize (tail ++ sent (record :: rest)) := by
          by_cases headed : 8 ≤ tail.length
          · rw [bodySize_append headed]
            omega
          · rw [bodySize_eq]
            omega
        have isWhole := bodySize_eq (tail ++ sent (record :: rest))
        split at read
        next inside =>
          obtain ⟨frame, later, stats', read, length, delivered⟩ := read
          rw [List.length_append] at inside
          refine ⟨some frame, later, stats', read, not_reports_some fun same => ?_, missed_short ?_ delivered⟩
          · rw [delivered.stream, List.length_drop, List.length_append]
            omega
          · rw [List.length_drop, List.length_append]
            omega
        next =>
          obtain ⟨later, stats', read, delivered⟩ := read
          exact ⟨none, later, stats', read, not_reports_none, missed_end delivered⟩

theorem missed_behind (standard : ∀ bytes, crc32 bytes = (Crc32.standard bytes).toNat) {stream : List UInt8}
    (longer : behind.length < stream.length)
    (missed : ∀ later : ByteReader, later.Delivers stream → Missed crc32 (record, behind) later) (before : List Record)
    (delivers : reader.Delivers (sent before ++ stream)) : Missed crc32 (record, behind) reader := by
  induction before generalizing reader with
  | nil => exact missed reader delivers
  | cons first rest ih =>
    intro count stats
    obtain ⟨call, later, stats', ⟨frame, _, _, left⟩, delivered, next⟩ := calls_burst standard [] (by decide) first rest
      stats delivers
    cases count with
    | zero => exact List.forall_mem_nil _
    | succ count =>
      rw [next]
      refine List.forall_mem_cons.mpr ⟨?_, ih delivered count stats'⟩
      rintro ⟨_, _, _, place⟩
      have lefts : (sent rest ++ stream).length = behind.length := congrArg List.length (left.symm.trans place)
      rw [List.length_append] at lefts
      omega

end Loss

private theorem reports_of_mem {all : List (Record × List UInt8)} {shown : List (Option LogFrame × List UInt8)}
    (reported : List.Forall₂ Reports all shown) {place : Record × List UInt8} (member : place ∈ all) :
    ∃ call ∈ shown, Reports place call := by
  induction reported with
  | nil => cases member
  | cons first rest ih =>
    rcases List.mem_cons.mp member with rfl | later
    · exact ⟨_, .head _, first⟩
    · obtain ⟨call, inside, reports⟩ := ih later
      exact ⟨call, .tail _ inside, reports⟩

/-- Whatever bytes stand in the place of one frame, repeated `read_frame` reads every other frame at its
place, in order, with its fields and the right CRC, if and only if no frame follows the damaged
one or each magic found in the damaged bytes has its header, payload and CRC in them. -/
theorem other_frames_reported_iff (crc32 : List UInt8 → Nat)
    (standard : ∀ bytes, crc32 bytes = (Crc32.standard bytes).toNat) (before after : List Record) (damaged : List UInt8)
    (reader : ByteReader) (stream : reader.stream = sent before ++ (damaged ++ sent after))
    (steady : ∀ call, 0 < reader.ready call) (stats : Stats) :
    (∃ count shown, shown.Sublist (calls crc32 count reader stats) ∧
        List.Forall₂ Reports (places (damaged ++ sent after) before ++ places [] after) shown) ↔
      after = [] ∨ framesFit damaged = true := by
  have delivers : reader.Delivers (sent before ++ (damaged ++ sent after)) := ⟨stream, steady⟩
  constructor
  · rintro ⟨count, shown, inside, reported⟩
    cases after with
    | nil => exact .inl rfl
    | cons record rest =>
      by_contra lost
      have runsOver : framesFit damaged = false := by simpa using lost
      -- The first frame behind the damage has a call that reports it, and none does.
      have first : (record, sent rest ++ []) ∈ places (damaged ++ sent (record :: rest)) before ++ places [] (record :: rest) :=
        List.mem_append_right _ (.head _)
      obtain ⟨call, member, reports⟩ := reports_of_mem reported first
      have longer : (sent rest ++ []).length < (damaged ++ sent (record :: rest)).length := by
        rw [List.append_nil, List.length_append, length_sent_cons]
        omega
      exact missed_behind standard longer (fun later => missed_damaged runsOver rest) before delivers count stats call
        (inside.subset member) reports
  · intro contained
    obtain ⟨front, later, stats', reported, delivered, calls'⟩ := calls_sent standard before stats delivers
    obtain ⟨count, back, inside, behind⟩ : ∃ count shown, shown.Sublist (calls crc32 count later stats') ∧
        List.Forall₂ Reports (places [] after) shown := by
      rcases contained with rfl | fits
      · exact ⟨0, [], List.nil_sublist _, .nil⟩
      · exact calls_damaged standard fits after stats' delivered
    refine ⟨before.length + count, front ++ back, ?_, List.rel_append reported behind⟩
    rw [calls']
    exact (List.append_sublist_append_left front).mpr inside

def bareEvent (seq : UInt32) : Record where
  val :=
    { seq, eventId := EventId.TEXT_LOG, level := LogLevel.INFO, length := 0, timestampUs := 100
      payload := Vector.replicate LOG_PAYLOAD_MAX 0 }
  property := Nat.zero_le _

/-- A frame overwritten with zeros costs only itself. -/
theorem other_frames_reported_zeros :
    let crc32 := fun bytes => (Crc32.calculate bytes).toNat
    let damaged := List.replicate 18 0
    ∃ count shown,
      shown.Sublist (calls crc32 count ⟨sent [bareEvent 6] ++ (damaged ++ sent [bareEvent 8]), fun _ => 1⟩ {}) ∧
      List.Forall₂ Reports (places (damaged ++ sent [bareEvent 8]) [bareEvent 6] ++ places [] [bareEvent 8]) shown := by
  intro crc32 damaged
  refine (other_frames_reported_iff crc32 (fun bytes => congrArg BitVec.toNat (Crc32.toBitVec_calculate bytes)) _ _ damaged _
    rfl (fun _ => Nat.one_pos) {}).mpr (.inr (framesFit_clean ?_))
  decide

/-- With its length byte changed from 0 to 64, a frame costs the one behind it as well. -/
theorem oversized_hides_next :
    let crc32 := fun bytes => (Crc32.calculate bytes).toNat
    let damaged := LOG_FRAME_MAGIC ++ [7, 0, 0, 0, 1, 0, 0, 64, 100, 0, 0, 0, 0, 0, 0, 0]
    damaged.length = (bareEvent 7).frame.length ∧
      ∀ count, readFrames crc32 count ⟨damaged ++ sent [bareEvent 8], fun _ => 1⟩ {} = List.replicate count none := by
  intro crc32 damaged
  refine ⟨(Record.length_frame (bareEvent 7)).symm, fun count => ?_⟩
  have delivers : ByteReader.Delivers ⟨damaged ++ sent [bareEvent 8], fun _ => 1⟩
      ([] ++ (LOG_FRAME_MAGIC ++ ([7, 0, 0, 0, 1, 0, 0, 64, 100, 0, 0, 0, 0, 0, 0, 0] ++ sent [bareEvent 8]))) :=
    ⟨rfl, fun _ => Nat.one_pos⟩
  have size : (sent [bareEvent 8]).length = 18 := length_sent_cons (bareEvent 8) []
  have read := readFrame_magic crc32 {} (by decide) delivers
  rw [bodySize_append (by decide), if_neg (by rw [List.length_append, size]; decide)] at read
  obtain ⟨later, stats, read, delivered⟩ := read
  cases count with
  | zero => rfl
  | succ count =>
    rw [readFrames, read, List.replicate_succ]
    exact congrArg _ (readFrames_end crc32 count stats delivered)

end PicoWLogger.LoggerViewer
