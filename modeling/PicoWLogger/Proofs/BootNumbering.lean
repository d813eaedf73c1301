import PicoWLogger.Boot
import PicoWLogger.Proofs.PowerCut
import PicoWLogger.Proofs.SequenceOrder

/-! Sequence numbers over power cycles. The newest stored frame outlives whatever the next append
erases, so the counter that `main` restores never hands out a number a second time. -/

namespace PicoWLogger
open FlashLogStorage

/-- In sector `k` behind its start, or at the start of one of the two sectors that follow it. -/
def Beyond (config : Config) (k addr : Nat) : Prop :=
  (config.base k < addr ∧ addr < config.base k + 4096) ∨ addr = config.base (config.next k) ∨
    addr = config.base (config.next (config.next k))

theorem Config.next_cases {config : Config} {k : Nat} (inside : k < config.sectors) :
    (k + 1 < config.sectors ∧ config.next k = k + 1) ∨ (k + 1 = config.sectors ∧ config.next k = 0) := by
  rcases Nat.lt_or_eq_of_le (Nat.succ_le_of_lt inside) with less | last
  · exact .inl ⟨less, Nat.mod_eq_of_lt less⟩
  · refine .inr ⟨last, ?_⟩
    rw [Config.next, ← last]
    exact Nat.mod_self _

section Position
variable {s : FlashLogStorage} {sectors : Nat → Sector} {k : Nat}

theorem Beyond.target (beyond : Beyond s.config k s.writeAddr) (config : isConfigValid s.config = true)
    (inside : k < s.config.sectors) (enough : 3 ≤ s.config.sectors) {record : Record} {j : Nat}
    (target : Target s sectors record j []) : j ≠ k := by
  have place := target.place
  have small := record.size_lt
  have positive := record.size_pos
  have follows := Config.next_lt config k
  have here := Config.base_inside config inside
  have first := Config.base_inside config follows
  have second := Config.base_inside config (Config.next_lt config (s.config.next k))
  have one := Config.next_cases inside
  have two := Config.next_cases follows
  rw [frameBytes_nil, List.length_nil, Nat.add_zero] at place
  rintro rfl
  rcases beyond with ⟨above, below⟩ | write | write
  · by_cases room : s.writeAddr + record.size ≤ s.config.base j + 4096
    · rw [appendAddress_fits config inside (by omega) below room] at place
      omega
    · rw [appendAddress_next config inside (by omega) (by omega) (by omega) (by omega)] at place
      simp only [Config.base] at place
      omega
  · rw [appendAddress_fits config follows (by omega) (by omega) (by omega), write] at place
    simp only [Config.base] at place
    omega
  · rw [appendAddress_fits config (Config.next_lt config (s.config.next j)) (by omega) (by omega) (by omega), write] at place
    simp only [Config.base] at place
    omega

theorem Beyond.behind (config : isConfigValid s.config = true) (inside : k < s.config.sectors) {addr : Nat}
    (above : s.config.base k < addr) (most : addr ≤ s.config.base k + 4096) : Beyond s.config k (s.wrapAddress addr) := by
  have sector := Config.base_inside config inside
  rcases Nat.lt_or_eq_of_le most with less | full
  · rw [wrapAddress, if_neg (by omega)]
    exact .inl ⟨above, less⟩
  · rw [full, wrapAddress_next config inside]
    exact .inr (.inl rfl)

/-- A dirty write address moves on by one sector at most. -/
theorem Beyond.escape {t : FlashLogStorage} (config : isConfigValid t.config = true) (inside : k < t.config.sectors) (addr : Nat)
    (above : t.config.base k < addr) (most : addr ≤ t.config.base k + 4096) (write : t.writeAddr = t.wrapAddress addr) :
    Beyond t.config k t.escapeDirty.writeAddr := by
  have sector := Config.base_inside config inside
  cases erased : t.isErasedAt t.writeAddr with
  | true =>
    rw [escapeDirty_clean erased, write]
    exact .behind config inside above most
  | false =>
    rw [escapeDirty_dirty erased]
    change Beyond t.config k (t.wrapAddress (nextSectorAddress t.writeAddr))
    rcases Nat.lt_or_eq_of_le most with less | full
    · have stays : t.writeAddr = addr := by rw [write, wrapAddress, if_neg (by omega)]
      rw [stays, nextSectorAddress_inside config inside (by omega) less, wrapAddress_next config inside]
      exact .inr (.inl rfl)
    · have follows := Config.next_lt config k
      have first := Config.base_inside config follows
      rw [write, full, wrapAddress_next config inside, nextSectorAddress_inside config follows (by omega) (by omega),
        wrapAddress_next config follows]
      exact .inr (.inr rfl)

/-- The frames in their order, and the last one: it has the greatest offset, and no other frame has. -/
private theorem last_greatest {complete : List (Nat × Record)} {base : UInt32} {last place : Nat × Record}
    (increasing : complete.Pairwise fun earlier later =>
      SerialOrder.offset base earlier.2.seq < SerialOrder.offset base later.2.seq)
    (isLast : complete.getLast? = some last) (member : place ∈ complete)
    (greatest : SerialOrder.offset base last.2.seq ≤ SerialOrder.offset base place.2.seq) : place = last := by
  obtain ⟨front, rfl⟩ := List.getLast?_eq_some_iff.mp isLast
  rcases List.mem_append.mp member with earlier | one
  · exact absurd ((List.pairwise_append.mp increasing).2.2 place earlier last (List.mem_singleton.mpr rfl))
      (not_lt.mpr greatest)
  · exact List.mem_singleton.mp one

/-- The rebuilt index has the last of the frames for the newest. -/
private theorem Contents.rebuild_last {complete : List (Nat × Record)} (contents : Contents s complete sectors)
    (imaged : Imaged s sectors) (ordered : SerialOrder.Ascending (complete.map fun place => place.2.seq))
    {last : Nat × Record} (isLast : complete.getLast? = some last) {fresh : FlashLogStorage}
    (sameConfig : fresh.config = s.config) (sameFlash : fresh.flash = s.flash) :
    ∃ oldest count, fresh.rebuildIndexFromFlash =
      (fresh.withIndex (fresh.scannedIndex oldest (hitOf last) count)).escapeDirty := by
  have scanned : fresh.scanner.hits fresh.config.endAddr fresh.config.startAddr =
      (Imaged.inOrder s.config sectors).map hitOf := by
    rw [(imaged.congr sameConfig fun _ _ _ => by rw [sameFlash]).hits, sameConfig]
  have listed {place : Nat × Record} : place ∈ Imaged.inOrder s.config sectors ↔ place ∈ complete :=
    contents.perm.mem_iff.symm
  have stored : last ∈ complete := List.mem_of_getLast? isLast
  obtain ⟨base, window, increasing⟩ := ordered.offsets
  rw [List.pairwise_map] at increasing
  obtain ⟨oldest, _, newest, isNewest, rebuilt⟩ := rebuild_some base scanned
    (fun none' => List.not_mem_nil ((List.map_eq_nil_iff.mp none') ▸ listed.mpr stored)) (fun hit member => by
      obtain ⟨place, here, rfl⟩ := List.mem_map.mp member
      exact window _ (List.mem_map_of_mem (listed.mp here)))
  obtain ⟨place, here, same⟩ := List.mem_map.mp (List.argmax_mem isNewest)
  have bound := List.le_of_mem_argmax (List.mem_map_of_mem (listed.mpr stored)) isNewest
  rw [← same] at bound
  have isPlace : place = last := last_greatest increasing isLast (listed.mp here) bound
  rw [isPlace] at same
  exact ⟨oldest, _, by rw [rebuilt, same]⟩

/-- A restart takes the last of the frames programmed whole for the newest, and writes beyond it. -/
theorem Contents.restart_last {complete : List (Nat × Record)} (contents : Contents s complete sectors)
    (imaged : Imaged s sectors) (ordered : SerialOrder.Ascending (complete.map fun place => place.2.seq))
    {last : Nat × Record} (isLast : complete.getLast? = some last) :
    s.restart.newestSeq = last.2.seq ∧
      ∃ k < s.config.sectors, InSector (s.config.base k) last ∧ Beyond s.config k s.restart.writeAddr := by
  obtain ⟨fresh, isFresh⟩ : ∃ fresh, (FlashLogStorage.new s.flash s.config s.sharedIo).started = fresh := ⟨_, rfl⟩
  have sameConfig : fresh.config = s.config := by rw [← isFresh]; rfl
  obtain ⟨oldest, count, rebuilt⟩ := contents.rebuild_last imaged ordered isLast sameConfig (by rw [← isFresh]; rfl)
  have listed : last ∈ Imaged.inOrder s.config sectors := contents.perm.mem_iff.mp (List.mem_of_getLast? isLast)
  obtain ⟨k, range, member⟩ := List.mem_flatMap.mp listed
  have inside := List.mem_range.mp range
  have sector := Config.base_inside contents.config inside
  have flashEnd := (Config.shape contents.config).2.2.2
  have fits : (sectors k).bytes.length ≤ 4096 := (contents.holding k inside).fits
  rw [Sector.bytes, List.length_append] at fits
  have bounds := placed_bounds member
  have positive := last.2.size_pos
  rw [restart_rebuilds contents.config, isFresh, rebuilt, ← sameConfig]
  refine ⟨?_, k, by rwa [sameConfig], ?_, ?_⟩
  · rw [escapeDirty]
    split <;> rfl
  · rw [sameConfig]
    exact ⟨bounds.1, by omega⟩
  · have wrap : u32 (last.1 + last.2.size) = last.1 + last.2.size := by
      rw [u32]
      omega
    have config : isConfigValid fresh.config = true := by rw [sameConfig]; exact contents.config
    rw [← sameConfig] at inside bounds
    refine Beyond.escape (t := fresh.withIndex _) config inside (last.1 + last.2.size)
      (by change fresh.config.base k < _; omega) (by change _ ≤ fresh.config.base k + 4096; omega) ?_
    change fresh.wrapAddress (u32 (last.1 + last.2.size)) = fresh.wrapAddress (last.1 + last.2.size)
    rw [wrap]

end Position

theorem outliving_last {begins : Bool} {addr : Nat} {complete : List (Nat × Record)} {last : Nat × Record}
    (isLast : complete.getLast? = some last) (outside : begins = true → ¬ (addr ≤ last.1 ∧ last.1 < addr + SECTOR_SIZE)) :
    (outliving begins addr complete).getLast? = some last := by
  obtain ⟨front, rfl⟩ := List.getLast?_eq_some_iff.mp isLast
  cases begins with
  | false => exact isLast
  | true =>
    have kept : decide (¬ (addr ≤ last.1 ∧ last.1 < addr + SECTOR_SIZE)) = true := decide_eq_true (outside rfl)
    rw [outliving, if_pos rfl, List.filter_append, List.filter_singleton, kept]
    exact List.getLast?_concat

/-- The frame programmed whole last is still there, and the next append goes beyond it. -/
structure Latest (h : LogHistory) : Prop where
  same : h.complete.getLast?.map Prod.snd = h.written.getLast?
  beyond : ∀ last ∈ h.complete.getLast?, ∃ k < h.storage.config.sectors,
    InSector (h.storage.config.base k) last ∧ Beyond h.storage.config k h.storage.writeAddr

section Latest
variable {h : LogHistory} {sectors : Nat → Sector}

/-- The sector that an append begins does not hold the last frame. -/
theorem Latest.outliving (latest : Latest h) (stored : Stored h sectors) (enough : 3 ≤ h.storage.config.sectors)
    {record : Record} {j : Nat} {front : List Record} (target : Target h.storage sectors record j front)
    {last : Nat × Record} (isLast : h.complete.getLast? = some last) :
    (outliving (isSectorStart (h.storage.appendAddress record.size)) (h.storage.appendAddress record.size)
      h.complete).getLast? = some last := by
  refine outliving_last isLast fun begins => ?_
  obtain ⟨k, inside, here, beyond⟩ := latest.beyond last isLast
  have none' := target.begins.mp begins
  subst none'
  have different := beyond.target stored.contents.config inside enough target
  have apart := h.storage.config.base_apart different
  rw [target.place, frameBytes_nil, List.length_nil]
  simp only [InSector, SECTOR_SIZE] at here ⊢
  omega

theorem append_write (stored : Stored h sectors) {record : Record} {k : Nat} {front : List Record}
    (target : Target h.storage sectors record k front) :
    (h.storage.append record.frame).2.writeAddr =
      h.storage.wrapAddress (h.storage.appendAddress record.size + record.size) := by
  have sector := Config.base_inside stored.contents.config target.inside
  have place := target.place
  have room := target.room
  have length := record.length_frame
  have small := record.size_lt
  obtain ⟨requests, result⟩ := append_responsive stored.working.responsive stored.contents.config stored.initialized
    stored.locked record.frame (by rw [length]; exact record.size_pos) (by omega) (by rw [length]) (by omega)
  have answered := (stored.append target).1
  rw [result] at answered ⊢
  split at answered
  · cases answered
  · rw [updateIndexAfterAppend, ← length]
    split <;> rfl

theorem stores_latest (stored : Stored h sectors) {record : Record} {k : Nat} {front : List Record}
    (target : Target h.storage sectors record k front) :
    (h.step (.append record)).written = h.written ++ [record] ∧ Latest (h.step (.append record)) := by
  obtain ⟨_, _, _, complete⟩ := stored.append target
  have shape : h.advance none record (h.storage.append record.frame).1 (h.storage.append record.frame).2 = _ :=
    advance_powered h record _ _ (by simp)
  have whole : (h.storage.append record.frame).2.flash.cellsFrom (h.storage.appendAddress record.size) record.size =
      record.frame := by
    by_contra part
    rw [LogHistory.step, shape, if_neg part, List.append_nil] at complete
    exact absurd (congrArg List.length complete) (by simp [part])
  have written : (h.step (.append record)).written = h.written ++ [record] := by
    rw [LogHistory.step, shape, if_pos whole]
  have config := stored.contents.config
  have sameConfig : (h.step (.append record)).storage.config = h.storage.config :=
    (Retains.append h.storage record.frame).config
  have inside := target.inside
  have room := target.room
  have positive := record.size_pos
  refine ⟨written, ?_, ?_⟩
  · rw [complete, written, List.getLast?_concat, List.getLast?_concat]
    rfl
  · rw [complete, List.getLast?_concat, sameConfig]
    rintro _ ⟨⟩
    refine ⟨k, inside, ?_, ?_⟩
    · rw [target.place]
      exact ⟨Nat.le_add_right _ _, by omega⟩
    · have write := append_write stored target
      change Beyond _ _ (h.storage.append record.frame).2.writeAddr
      rw [write, target.place]
      exact .behind config inside (by omega) (by omega)

/-- A cut may add the frame under way to what is stored, and takes nothing else that came last. -/
theorem Latest.cut_same (latest : Latest h) (stored : Stored h sectors) (enough : 3 ≤ h.storage.config.sectors)
    (record : Record) (budget : Nat) :
    let after := h.step (.cut record budget)
    (after.written = h.written ∨ after.written = h.written ++ [record]) ∧
      after.complete.getLast?.map Prod.snd = after.written.getLast? := by
  intro after
  obtain ⟨j, front, target⟩ := stored.position.target stored.contents.config record
  by_cases unpowered : isSectorStart (h.storage.appendAddress record.size) = true ∧ some budget = some 0
  · have shape : after = { h with storage := _ } := advance_unpowered h record _ unpowered
    rw [shape]
    exact ⟨.inl rfl, latest.same⟩
  · have shape := advance_powered h record false (h.storage.cutAppend budget record.frame) unpowered
    have isAfter : after = h.advance (some budget) record false (h.storage.cutAppend budget record.frame) := rfl
    rw [isAfter, shape]
    dsimp only
    split
    · rw [List.getLast?_concat, List.getLast?_concat]
      exact ⟨.inr rfl, rfl⟩
    · rw [List.append_nil, List.append_nil, ← latest.same]
      refine ⟨.inl rfl, ?_⟩
      cases isLast : h.complete.getLast? with
      | none =>
        rw [List.getLast?_eq_none_iff.mp isLast]
        simp [PicoWLogger.outliving]
      | some last => rw [latest.outliving stored enough target isLast]

end Latest

/-- The records carry values of a counter, each later than the ones before, that has not reached `next`. -/
def Numbered (records : List Record) (next : Nat) : Prop :=
  ∃ counts : List Nat, records.map Record.seq = counts.map UInt32.ofNat ∧ counts.Pairwise (· < ·) ∧ ∀ m ∈ counts, m < next

namespace Numbered
variable {records : List Record} {next : Nat}

theorem mono (numbered : Numbered records next) {later : Nat} (less : next ≤ later) : Numbered records later := by
  obtain ⟨counts, same, increasing, below⟩ := numbered
  exact ⟨counts, same, increasing, fun m member => Nat.lt_of_lt_of_le (below m member) less⟩

theorem push (numbered : Numbered records next) {record : Record} (seq : record.seq = UInt32.ofNat next) :
    Numbered (records ++ [record]) (next + 1) := by
  obtain ⟨counts, same, increasing, below⟩ := numbered
  refine ⟨counts ++ [next], ?_, ?_, ?_⟩
  · rw [List.map_append, List.map_append, same, List.map_singleton, List.map_singleton, seq]
  · refine List.pairwise_append.mpr ⟨increasing, List.pairwise_singleton _ _, ?_⟩
    intro m member n last
    rw [List.mem_singleton.mp last]
    exact below m member
  · intro m member
    rcases List.mem_append.mp member with old | new
    · exact Nat.lt_succ_of_lt (below m old)
    · rw [List.mem_singleton.mp new]
      exact Nat.lt_succ_self _

/-- The count of the last record bounds all of them. -/
theorem last (numbered : Numbered records next) {record : Record} (isLast : records.getLast? = some record) :
    ∃ count < next, record.seq = UInt32.ofNat count ∧ Numbered records (count + 1) := by
  obtain ⟨counts, same, increasing, below⟩ := numbered
  obtain ⟨front, rfl⟩ := List.getLast?_eq_some_iff.mp isLast
  rcases List.eq_nil_or_concat counts with none' | ⟨others, count, shape⟩
  · rw [none'] at same
    simp at same
  · rw [List.concat_eq_append] at shape
    subst shape
    have seqs := same
    rw [List.map_append, List.map_append, List.map_singleton, List.map_singleton] at seqs
    have seq := (List.append_inj_right' seqs rfl)
    refine ⟨count, below count (List.mem_append_right _ (List.mem_singleton.mpr rfl)), (List.cons.inj seq).1, _, same,
      increasing, ?_⟩
    intro m member
    rcases List.mem_append.mp member with earlier | one
    · exact Nat.lt_succ_of_lt ((List.pairwise_append.mp increasing).2.2 m earlier count (List.mem_singleton.mpr rfl))
    · rw [List.mem_singleton.mp one]
      exact Nat.lt_succ_self _

theorem ascending (numbered : Numbered records next) (few : next ≤ 2 ^ 31) :
    SerialOrder.Ascending (records.map Record.seq) := by
  obtain ⟨counts, same, increasing, below⟩ := numbered
  exact ⟨counts, same, increasing, fun m member n _ => by have := below m member; omega⟩

theorem newer (numbered : Numbered records next) (few : next < 2 ^ 31) :
    (records.Pairwise fun earlier later => isSeqNewer later.seq earlier.seq = true) ∧
      ∀ record ∈ records, isSeqNewer (UInt32.ofNat next) record.seq = true := by
  obtain ⟨counts, same, increasing, below⟩ := numbered
  have later {m n : Nat} (less : m < n) (most : n ≤ next) : isSeqNewer (UInt32.ofNat n) (UInt32.ofNat m) = true := by
    rw [isSeqNewer, decide_eq_true_iff, SerialOrder.newer_ofNat (by omega) (by omega)]
    exact less
  refine ⟨?_, ?_⟩
  · have seqs : (records.map Record.seq).Pairwise fun earlier later => isSeqNewer later earlier = true := by
      rw [same, List.pairwise_map]
      exact increasing.imp_of_mem fun _ right less => later less (Nat.le_of_lt (below _ right))
    exact List.pairwise_map.mp seqs
  · intro record member
    obtain ⟨m, listed, isSeq⟩ := List.mem_map.mp (same ▸ List.mem_map_of_mem member)
    rw [← isSeq]
    exact later (below m listed) (Nat.le_refl _)

end Numbered

/-- What holds of a board after `drawn` events: the log is durable, and the counter is ahead of every
frame ever programmed whole. -/
structure Continuing (d : Device) (drawn : Nat) : Prop where
  durable : ∃ sectors, Durable d.history sectors
  latest : Latest d.history
  numbered : ∃ next ≤ drawn, Numbered d.history.written next ∧ d.logger.seq = UInt32.ofNat next

namespace Continuing
variable {d : Device} {drawn : Nat}

/-- `main` takes up the counter behind the newest frame, which is the last one programmed whole. -/
theorem boot {history : LogHistory} {next : Nat} (durable : ∃ sectors, Durable history sectors) (latest : Latest history)
    (newest : ∀ last ∈ history.complete.getLast?, history.storage.newestSeq = last.2.seq)
    (numbered : Numbered history.written next) : Continuing (.boot history) next := by
  refine ⟨durable, latest, ?_⟩
  obtain ⟨sectors, holds⟩ := durable
  have count : history.storage.validFrameCount = history.complete.length := holds.count
  have same := latest.same
  cases isLast : history.complete.getLast? with
  | none =>
    have empty : history.complete = [] := List.getLast?_eq_none_iff.mp isLast
    rw [isLast, Option.map_none, eq_comm, List.getLast?_eq_none_iff] at same
    rw [empty, List.length_nil] at count
    have kept : EventLogger.restoreSeq (.new 0) history.storage = .new 0 := if_neg (by omega)
    refine ⟨0, Nat.zero_le _, ⟨[], ?_, List.Pairwise.nil, List.forall_mem_nil _⟩, ?_⟩
    · change history.written.map Record.seq = _
      rw [same]
      rfl
    · change (EventLogger.restoreSeq (.new 0) history.storage).seq = _
      rw [kept]
      rfl
  | some last =>
    rw [isLast, Option.map_some] at same
    obtain ⟨front, shape⟩ := List.getLast?_eq_some_iff.mp isLast
    rw [shape, List.length_append, List.length_singleton] at count
    have restored : EventLogger.restoreSeq (.new 0) history.storage =
        EventLogger.setNextSeq (.new 0) (history.storage.newestSeq + 1) := if_pos (by omega)
    obtain ⟨m, less, seq, tight⟩ := numbered.last same.symm
    refine ⟨m + 1, less, tight, ?_⟩
    change (EventLogger.restoreSeq (.new 0) history.storage).seq = _
    rw [restored]
    change history.storage.newestSeq + 1 = _
    rw [newest last isLast, seq, UInt32.ofNat_add]
    rfl

/-- Flash after a cut: durable, and a restart finds the frame programmed whole last. -/
private theorem cut (continuing : Continuing d drawn) (enough : 3 ≤ d.history.storage.config.sectors)
    (few : drawn + 1 < 2 ^ 31) (request : Loggable) (timestampUs : UInt32) (budget : Nat)
    (honest : (d.step (.cut request timestampUs budget)).history.Honest) :
    Continuing (d.step (.cut request timestampUs budget)) (drawn + 1) := by
  obtain ⟨⟨sectors, durable⟩, latest, next, below, numbered, counter⟩ := continuing
  obtain ⟨record, isRecord⟩ : ∃ record, request.event d.logger.nextSeq.1 timestampUs = record := ⟨_, rfl⟩
  have seq : record.seq = UInt32.ofNat next := by rw [← isRecord, ← counter]; rfl
  obtain ⟨history, isHistory⟩ : ∃ history, d.history.step (.cut record budget) = history := ⟨_, rfl⟩
  have shape : d.step (.cut request timestampUs budget) = .boot history := by rw [← isHistory, ← isRecord]; rfl
  rw [shape] at honest ⊢
  obtain ⟨written, same⟩ := latest.cut_same durable.toStored enough record budget
  rw [isHistory] at written same
  have after : Numbered history.written (next + 1) := by
    rcases written with kept | added
    · rw [kept]
      exact numbered.mono (Nat.le_succ _)
    · rw [added]
      exact numbered.push seq
  have ordered := after.ascending (by omega)
  have durable' : ∃ sectors', Durable history sectors' := by
    rw [← isHistory] at honest ordered ⊢
    exact durable.cut record budget honest ordered
  obtain ⟨v, sectors', sameConfig, _, restarted, _, contents, _, part⟩ := durable.toStored.cut record budget
  rw [isHistory] at restarted contents part
  have again : v.restart.config = v.config ∧ v.restart.flash = v.flash :=
    ⟨restart_config contents.config, restart_flash contents.config⟩
  have imaged : Imaged v sectors' := by
    have here : Contents history.storage history.complete sectors' := by
      rw [restarted]
      exact contents.congr again.1 (by rw [again.2])
    refine (here.imaged honest).congr ?_ fun _ _ _ => ?_
    · rw [restarted, again.1]
    · rw [restarted, again.2]
  have ascending : SerialOrder.Ascending (history.complete.map fun place => place.2.seq) := by
    have seqs : history.complete.map (fun place => place.2.seq) = (history.complete.map Prod.snd).map Record.seq := by
      rw [List.map_map]
      rfl
    rw [seqs]
    exact ordered.sublist (part.map _)
  have found {last : Nat × Record} (isLast : history.complete.getLast? = some last) :=
    contents.restart_last imaged ascending isLast
  have latest' : Latest history := by
    refine ⟨same, fun last isLast => ?_⟩
    rw [restarted, again.1]
    exact (found isLast).2
  obtain ⟨holds, kept, m, least, rest⟩ :=
    boot durable' latest' (fun last isLast => by rw [restarted]; exact (found isLast).1) after
  exact ⟨holds, kept, m, by omega, rest⟩

theorem step (continuing : Continuing d drawn) (enough : 3 ≤ d.history.storage.config.sectors) (few : drawn + 1 < 2 ^ 31)
    (honest : d.history.Honest) {next : DeviceStep} (after : (d.step next).history.Honest) :
    Continuing (d.step next) (drawn + 1) := by
  cases next with
  | store request timestampUs =>
    obtain ⟨⟨sectors, durable⟩, latest, count, below, numbered, counter⟩ := continuing
    have seq : (request.event d.logger.nextSeq.1 timestampUs).seq = UInt32.ofNat count := by rw [← counter]; rfl
    obtain ⟨k, front, target⟩ := durable.position.target durable.contents.config (request.event d.logger.nextSeq.1 timestampUs)
    obtain ⟨written, latest'⟩ := stores_latest durable.toStored target
    refine ⟨(durable.append honest _).2, latest', count + 1, by omega, ?_, ?_⟩
    · have pushed := numbered.push seq
      rw [← written] at pushed
      exact pushed
    · change d.logger.seq + 1 = _
      rw [counter, UInt32.ofNat_add]
      rfl
  | drop =>
    obtain ⟨durable, latest, count, below, numbered, counter⟩ := continuing
    refine ⟨durable, latest, count + 1, by omega, numbered.mono (Nat.le_succ _), ?_⟩
    change d.logger.seq + 1 = _
    rw [counter, UInt32.ofNat_add]
    rfl
  | cut request timestampUs budget => exact continuing.cut enough few request timestampUs budget after

end Continuing

namespace Device

theorem run_concat (d : Device) (steps : List DeviceStep) (last : DeviceStep) :
    d.run (steps ++ [last]) = (d.run steps).step last := List.foldl_append

theorem step_config (d : Device) (next : DeviceStep) (config : isConfigValid d.history.storage.config = true) :
    (d.step next).history.storage.config = d.history.storage.config := by
  cases next with
  | store request timestampUs => exact (Retains.append d.history.storage _).config
  | drop => rfl
  | cut request timestampUs budget => exact restart_config config

theorem run_config (d : Device) (steps : List DeviceStep) (config : isConfigValid d.history.storage.config = true) :
    (d.run steps).history.storage.config = d.history.storage.config := by
  induction steps using List.reverseRecOn with
  | nil => rfl
  | append_singleton steps last ih =>
    rw [run_concat, step_config _ _ (by rwa [ih]), ih]

theorem run_continuing {d : Device} (continuing : Continuing d 0) (config : isConfigValid d.history.storage.config = true)
    (enough : 3 ≤ d.history.storage.config.sectors) (steps : List DeviceStep) (few : steps.length < 2 ^ 31)
    (honest : ∀ front, front <+: steps → (d.run front).history.Honest) : Continuing (d.run steps) steps.length := by
  induction steps using List.reverseRecOn with
  | nil => exact continuing
  | append_singleton steps last ih =>
    rw [List.length_append, List.length_singleton] at few ⊢
    have before := ih (by omega) fun front part => honest front (part.trans (List.prefix_append _ _))
    have after := honest (steps ++ [last]) (List.prefix_refl _)
    rw [run_concat] at after ⊢
    exact before.step (by rw [run_config d steps config]; exact enough) few (honest steps (List.prefix_append _ _)) after

end Device

theorem Durable.readable {h : LogHistory} {sectors : Nat → Sector} (durable : Durable h sectors) (honest : h.Honest)
    {place : Nat × Record} (member : place ∈ h.complete) :
    h.storage.readFrame place.1 LOG_FRAME_MAX_SIZE = some place.2.frame := by
  have imaged := durable.imaged honest
  obtain ⟨k, range, here⟩ := List.mem_flatMap.mp (durable.contents.perm.mem_iff.mp member)
  obtain ⟨found, bytes⟩ := imaged.valid (List.mem_range.mp range) here
  rw [readFrame_valid imaged.config durable.locked found, bytes]

theorem powerOn_continuing {s : FlashLogStorage} (config : isConfigValid s.config = true) (working : s.Working)
    (erased : s.Erased) : Continuing (.powerOn s) 0 ∧ (Device.powerOn s).history.storage.config = s.config := by
  obtain ⟨t, started, sameConfig, works, represents, _, index⟩ := init_erased config working erased
  rw [← sameConfig] at represents index
  have begin' : Device.powerOn s = .boot (.start t) := by rw [Device.powerOn, started]
  rw [begin']
  refine ⟨.boot ⟨_, start_durable works represents index⟩ ⟨rfl, nofun⟩ nofun ⟨[], rfl, List.Pairwise.nil, nofun⟩, sameConfig⟩

/-- Over any number of power cuts the frames programmed whole carry ever newer numbers, and the next
number is newer than all of them, as long as fewer than 2^31 events were numbered. Frames acknowledged and not
erased since are read back, and the count is right. -/
theorem numbering_survives_power_cuts {s : FlashLogStorage} (config : isConfigValid s.config = true) (working : s.Working)
    (erased : s.Erased) (enough : 3 ≤ s.config.sectors) (steps : List DeviceStep) (few : steps.length < 2 ^ 31)
    (honest : ∀ front, front <+: steps → ((Device.powerOn s).run front).history.Honest) :
    let d := (Device.powerOn s).run steps
    (d.history.written.Pairwise fun earlier later => isSeqNewer later.seq earlier.seq = true) ∧
      (∀ record ∈ d.history.written, isSeqNewer d.logger.seq record.seq = true) ∧
      (∀ place ∈ d.history.acked, d.history.storage.readFrame place.1 LOG_FRAME_MAX_SIZE = some place.2.frame) ∧
      d.history.storage.validFrameCount = d.history.complete.length := by
  intro d
  obtain ⟨started, sameConfig⟩ := powerOn_continuing config working erased
  rw [← sameConfig] at config enough
  obtain ⟨⟨sectors, durable⟩, _, next, below, numbered, counter⟩ :=
    Device.run_continuing started config enough steps few honest
  obtain ⟨ordered, ahead⟩ := numbered.newer (Nat.lt_of_le_of_lt below few)
  rw [← counter] at ahead
  exact ⟨ordered, ahead, fun place member => durable.readable (honest steps (List.prefix_refl _)) (durable.acked member),
    durable.count⟩

def plainEvent : Loggable := ⟨LoggerSystem.emptyRequest, by decide⟩

def cutEvents : List DeviceStep := [.store plainEvent 0, .store plainEvent 0, .cut plainEvent 0 5]

/-- Two stored events and a cut in a third: the next number is newer than both. -/
theorem numbering_survives_power_cuts_cut :
    ∃ d, (Device.powerOn (blankStorage ⟨0, 12288⟩)).run cutEvents = d ∧
      ∀ seq ∈ [0, 1], (∃ record ∈ d.history.written, record.seq = seq) ∧ isSeqNewer d.logger.seq seq = true := by
  obtain ⟨t, started, sameConfig, works, represents, _, index⟩ := init_erased (s := blankStorage ⟨0, 12288⟩)
    (by decide) (blankStorage_working _) (blankStorage_erased _)
  have isT : ((blankStorage ⟨0, 12288⟩).init true).2 = t := congrArg Prod.snd started
  have empty : t.validFrameCount = 0 := congrArg Index.validFrameCount index
  have begin' : Device.powerOn (blankStorage ⟨0, 12288⟩) = { history := .start t, logger := .new 0 } := by
    rw [Device.powerOn, started, Device.boot]
    exact congrArg (Device.mk (.start t)) (if_neg (by change ¬ t.validFrameCount > 0; omega))
  rw [← sameConfig] at represents index
  obtain ⟨events, isEvents⟩ : ∃ events : UInt32 → Record, events = fun seq => plainEvent.event seq 0 := ⟨_, rfl⟩
  obtain ⟨steps, isSteps⟩ : ∃ steps : List PowerStep, steps = [.append (events 0), .append (events 1), .cut (events 2) 5] :=
    ⟨_, rfl⟩
  have conditions := plain_run (s := blankStorage ⟨0, 12288⟩) (by decide) (blankStorage_working _) (blankStorage_erased _)
    steps (by rw [isSteps, isEvents]; decide +kernel) (by
      intro record budget member
      simp only [isSteps, List.mem_cons, reduceCtorEq, PowerStep.cut.injEq, false_or, List.not_mem_nil, or_false] at member
      omega) (by rw [isSteps, isEvents]; exact ⟨[0, 1, 2], rfl, by decide, by decide⟩)
  rw [isT] at conditions
  have durable := start_durable works represents index
  have honest (front : List PowerStep) (part : front <+: steps) : ((LogHistory.start t).run front).Honest :=
    conditions.2 front part
  obtain ⟨h₁, isH₁⟩ : ∃ h₁, (LogHistory.start t).step (.append (events 0)) = h₁ := ⟨_, rfl⟩
  obtain ⟨h₂, isH₂⟩ : ∃ h₂, h₁.step (.append (events 1)) = h₂ := ⟨_, rfl⟩
  have run (n : Nat) : ((Device.mk (.start t) (.new 0)).run (cutEvents.take n)).history =
      (LogHistory.start t).run (steps.take n) := by
    rw [isSteps, isEvents]
    match n with
    | 0 => rfl
    | 1 => rfl
    | 2 => rfl
    | n + 3 =>
      simp only [cutEvents, List.take_succ_cons, List.take_nil]
      rfl
  have survives := numbering_survives_power_cuts (s := blankStorage ⟨0, 12288⟩) (by decide) (blankStorage_working _)
    (blankStorage_erased _) (by decide) cutEvents (by decide) fun front part => by
      rw [List.prefix_iff_eq_take.mp part, begin', run]
      exact honest _ (List.take_prefix _ _)
  rw [begin'] at survives ⊢
  obtain ⟨_, ahead, _⟩ := survives
  obtain ⟨_, next⟩ := durable.append (honest [] List.nil_prefix) (events 0)
  rw [isH₁] at next
  obtain ⟨sectors, durable₁⟩ := next
  obtain ⟨_, _, first⟩ := durable.position.target durable.contents.config (events 0)
  obtain ⟨_, _, second⟩ := durable₁.position.target durable₁.contents.config (events 1)
  have written₁ : h₁.written = [events 0] := by rw [← isH₁, (stores_latest durable.toStored first).1]; rfl
  have written₂ : h₂.written = [events 0, events 1] := by
    rw [← isH₂, (stores_latest durable₁.toStored second).1, written₁]
    rfl
  obtain ⟨d, isD⟩ : ∃ d, (Device.mk (.start t) (.new 0)).run cutEvents = d := ⟨_, rfl⟩
  have history : d.history = h₂.step (.cut (events 2) 5) := by
    rw [← isD, ← isH₂, ← isH₁]
    have all := run 3
    rw [isSteps] at all
    exact all
  rw [isD] at ahead
  have stored {record : Record} (member : record ∈ [events 0, events 1]) : record ∈ d.history.written := by
    rw [history]
    refine (LogHistory.written_step h₂ _).subset ?_
    rwa [written₂]
  refine ⟨d, isD, fun seq member => ?_⟩
  rcases List.mem_cons.mp member with rfl | later
  · have here := stored (List.mem_cons_self (a := events 0))
    exact ⟨⟨_, here, by rw [isEvents]; rfl⟩, by have newer := ahead _ here; rwa [isEvents] at newer⟩
  · rw [List.mem_singleton.mp later]
    have here := stored (List.mem_cons_of_mem (events 0) (List.mem_singleton.mpr rfl))
    exact ⟨⟨_, here, by rw [isEvents]; rfl⟩, by have newer := ahead _ here; rwa [isEvents] at newer⟩

end PicoWLogger
