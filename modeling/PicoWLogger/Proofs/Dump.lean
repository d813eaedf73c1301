import PicoWLogger.Proofs.RingIndex

/-! The dumps of a running log. From the oldest frame the loop goes round the ring,
passes over erased bytes, and stops at the frame with the newest number. -/

namespace PicoWLogger
open FlashLogStorage

private theorem drop_step {α : Type} (item : α) (items : List α) (skip seen : Nat) :
    (item :: items).drop (skip - seen) = (if seen ≥ skip then [item] else []) ++ items.drop (skip - (seen + 1)) := by
  by_cases enough : seen ≥ skip
  · rw [if_pos enough, Nat.sub_eq_zero_of_le enough, Nat.sub_eq_zero_of_le (Nat.le_succ_of_le enough)]
    rfl
  · rw [if_neg enough, show skip - seen = skip - (seen + 1) + 1 by omega]
    rfl

section Loop
variable {s : FlashLogStorage} {sectors : Nat → Sector}

private theorem sendLoop_blank (config : isConfigValid s.config = true) (skip seen addr count scanned : Nat)
    (inside : addr + count ≤ s.config.endAddr) (left : scanned + count ≤ s.config.endAddr - s.config.startAddr)
    (blank : ∀ a, addr ≤ a → a < addr + count → s.isValidFrameAt a = none) :
    s.sendLoop skip (s.wrapAddress addr) scanned seen =
      s.sendLoop skip (s.wrapAddress (addr + count)) (scanned + count) seen := by
  obtain ⟨_, _, _, flashEnd⟩ := Config.shape config
  induction count generalizing addr scanned with
  | zero => rfl
  | succ count ih =>
    have stays : s.wrapAddress addr = addr := by rw [wrapAddress, if_neg (by omega)]
    have missing := blank addr (Nat.le_refl _) (by omega)
    have moved : u32 (addr + 1) = addr + 1 := by
      rw [u32]
      omega
    have later := ih (addr + 1) (scanned + 1) (by omega) (by omega) fun a above below => blank a (by omega) (by omega)
    rw [stays, sendLoop, if_pos (by omega)]
    split
    next header size found => rw [missing] at found; cases found
    next =>
      rw [moved, later, Nat.add_right_comm addr, Nat.add_right_comm scanned]
      rfl

private theorem sendLoop_frame (imaged : Imaged s sectors) (locked : s.mutexCreated = true) (skip seen scanned : Nat)
    {k : Nat} (inside : k < s.config.sectors) {place : Nat × Record}
    (member : place ∈ placed (s.config.base k) (sectors k).records)
    (left : scanned < s.config.endAddr - s.config.startAddr) :
    s.sendLoop skip (s.wrapAddress place.1) scanned seen =
      let here := if seen ≥ skip then [place.2.frame] else []
      if place.2.seq = s.newestSeq then (true, here)
      else
        let later := s.sendLoop skip (s.wrapAddress (place.1 + place.2.size)) (scanned + place.2.size) (seen + 1)
        (later.1, here ++ later.2) := by
  obtain ⟨valid, bytes⟩ := imaged.valid inside member
  obtain ⟨_, areaEnd, _, flashEnd⟩ := Config.shape imaged.config
  have bounds := placed_bounds member
  have fits := (imaged.holds k inside).fits
  have sector := Config.base_inside imaged.config inside
  have positive := place.2.size_pos
  rw [Sector.bytes, List.length_append] at fits
  have stays : s.wrapAddress place.1 = place.1 := by rw [wrapAddress, if_neg (by omega)]
  have frame : s.readFrame place.1 LOG_FRAME_MAX_SIZE = some place.2.frame := by
    rw [readFrame_valid imaged.config locked valid, bytes]
  have moved : u32 (place.1 + place.2.size) = place.1 + place.2.size := by
    rw [u32]
    omega
  rw [stays, sendLoop, if_pos left]
  split
  next header size found =>
    rw [valid] at found
    cases found
    split
    next missing => rw [frame] at missing; cases missing
    next sent found =>
      rw [frame] at found
      cases found
      rw [Record.length_frame, moved]
      rfl
  next found => rw [valid] at found; cases found

private theorem sendLoop_pass (imaged : Imaged s sectors) (locked : s.mutexCreated = true) (skip seen scanned addr : Nat)
    {k : Nat} (inside : k < s.config.sectors) (records : List Record)
    (part : ∀ place ∈ placed addr records, place ∈ placed (s.config.base k) (sectors k).records)
    (others : ∀ record ∈ records, record.seq ≠ s.newestSeq)
    (left : scanned + (frameBytes records).length ≤ s.config.endAddr - s.config.startAddr) :
    s.sendLoop skip (s.wrapAddress addr) scanned seen =
      let later := s.sendLoop skip (s.wrapAddress (addr + (frameBytes records).length))
        (scanned + (frameBytes records).length) (seen + records.length)
      (later.1, (records.map Record.frame).drop (skip - seen) ++ later.2) := by
  induction records generalizing seen scanned addr with
  | nil => simp
  | cons record rest ih =>
    have positive := record.size_pos
    rw [frameBytes_cons, List.length_append, Record.length_frame] at left
    have first : (addr, record) ∈ placed addr (record :: rest) := List.mem_cons_self
    have later := ih (seen + 1) (scanned + record.size) (addr + record.size)
      (fun place member => part place (List.mem_cons_of_mem _ member))
      (fun other member => others other (List.mem_cons_of_mem _ member)) (by omega)
    rw [sendLoop_frame imaged locked skip seen scanned inside (part _ first) (by omega)]
    simp only [others record List.mem_cons_self, ↓reduceIte]
    rw [later, List.map_cons, drop_step, frameBytes_cons, List.length_append, Record.length_frame, List.length_cons,
      List.append_assoc]
    simp only [Nat.add_assoc, Nat.add_comm 1]

private theorem sendLoop_stop (imaged : Imaged s sectors) (locked : s.mutexCreated = true) (skip seen scanned : Nat)
    {k : Nat} (inside : k < s.config.sectors) {records : List Record} {last : Record}
    (held : (sectors k).records = records ++ [last]) (others : ∀ record ∈ records, record.seq ≠ s.newestSeq)
    (newest : last.seq = s.newestSeq) (left : scanned + 4096 ≤ s.config.endAddr - s.config.startAddr) :
    s.sendLoop skip (s.config.base k) scanned seen =
      (true, ((records ++ [last]).map Record.frame).drop (skip - seen)) := by
  have sector := Config.base_inside imaged.config inside
  have fits := (imaged.holds k inside).fits
  have positive := last.size_pos
  have places : placed (s.config.base k) (sectors k).records = placed (s.config.base k) records ++
      [(s.config.base k + (frameBytes records).length, last)] := by rw [held, placed_append]; rfl
  rw [Sector.bytes, held, frameBytes_append, frameBytes_cons] at fits
  simp only [List.length_append, Record.length_frame] at fits
  have stays : s.wrapAddress (s.config.base k) = s.config.base k := by rw [wrapAddress, if_neg (by omega)]
  have pass := sendLoop_pass imaged locked skip seen scanned (s.config.base k) inside records
    (fun place member => by rw [places]; exact List.mem_append_left _ member) others (by omega)
  have stop := sendLoop_frame imaged locked skip (seen + records.length) (scanned + (frameBytes records).length) inside
    (by rw [places]; exact List.mem_append_right _ List.mem_cons_self) (by omega)
  simp only [newest, ↓reduceIte] at stop
  rw [stays, stop] at pass
  have tail := drop_step last.frame [] skip (seen + records.length)
  rw [List.drop_nil, List.append_nil] at tail
  rw [pass, ← tail, List.map_append, List.drop_append, List.length_map, Nat.sub_sub]
  rfl

/-- The loop sends what lies ahead in ring order, up to the newest frame. -/
private theorem sendLoop_stretch (imaged : Imaged s sectors) (locked : s.mutexCreated = true) (skip seen count scanned : Nat)
    {k : Nat} (inside : k < s.config.sectors) (lap : scanned + 4096 * count ≤ 4096 * s.config.sectors)
    {front : List (Nat × Record)} {last : Nat × Record}
    (ahead : RingOrder.stretch s.config.sectors count k (fun j => placed (s.config.base j) (sectors j).records) =
      front ++ [last])
    (others : ∀ place ∈ front, place.2.seq ≠ s.newestSeq) (newest : last.2.seq = s.newestSeq) :
    s.sendLoop skip (s.config.base k) scanned seen =
      (true, ((front ++ [last]).map fun place => place.2.frame).drop (skip - seen)) := by
  obtain ⟨_, areaEnd, _, _⟩ := Config.shape imaged.config
  have area : s.config.endAddr - s.config.startAddr = 4096 * s.config.sectors := by omega
  induction count generalizing k seen scanned front with
  | zero =>
    have nothing := congrArg List.length ahead
    simp [RingOrder.stretch] at nothing
  | succ count ih =>
    have sector := Config.base_inside imaged.config inside
    have fits := (imaged.holds k inside).fits
    rw [Sector.bytes, List.length_append] at fits
    rw [RingOrder.stretch_cons inside] at ahead
    have follows := Config.next_lt imaged.config k
    have left : scanned + 4096 ≤ s.config.endAddr - s.config.startAddr := by
      rw [area]
      exact le_trans (Nat.add_le_add_left (Nat.le_mul_of_pos_right 4096 (Nat.succ_pos count)) scanned) lap
    rcases List.eq_nil_or_concat (RingOrder.stretch s.config.sectors count ((k + 1) % s.config.sectors)
      fun j => placed (s.config.base j) (sectors j).records) with empty | ⟨front', last', shape⟩
    · rw [empty, List.append_nil] at ahead
      have records := map_snd_placed (s.config.base k) (sectors k).records
      rw [ahead, List.map_append, List.map_singleton] at records
      have stop := sendLoop_stop imaged locked skip seen scanned inside records.symm
        (fun record member => by
          obtain ⟨place, here, rfl⟩ := List.mem_map.mp member
          exact others place here) newest left
      rw [stop]
      simp [List.map_map, Function.comp_def]
    · rw [shape, List.concat_eq_append, ← List.append_assoc] at ahead
      obtain ⟨sameFront, sameLast⟩ := List.append_inj' ahead rfl
      obtain rfl : last' = last := List.singleton_inj.mp sameLast
      subst sameFront
      have stays : s.wrapAddress (s.config.base k) = s.config.base k := by rw [wrapAddress, if_neg (by omega)]
      have pass := sendLoop_pass imaged locked skip seen scanned (s.config.base k) inside (sectors k).records
        (fun place member => member)
        (fun record member => by
          obtain ⟨place, here, rfl⟩ := exists_place (s.config.base k) member
          exact others place (List.mem_append_left _ here)) (by omega)
      have blank := sendLoop_blank imaged.config skip (seen + (sectors k).records.length)
        (s.config.base k + (frameBytes (sectors k).records).length) (4096 - (frameBytes (sectors k).records).length)
        (scanned + (frameBytes (sectors k).records).length) (by omega) (by omega)
        fun a above below => imaged.blank inside above (by omega)
      have later := ih (seen + (sectors k).records.length) (scanned + 4096) follows (by omega)
        (by rw [Config.next, shape, List.concat_eq_append]) fun place member => others place (List.mem_append_right _ member)
      rw [Nat.add_assoc (s.config.base k), Nat.add_assoc scanned, Nat.add_sub_cancel' (by omega),
        wrapAddress_next imaged.config inside] at blank
      rw [stays, blank, later] at pass
      rw [pass, List.append_assoc, @List.map_append _ _ _ (placed _ _), map_frame_placed, List.drop_append, List.length_map,
        Nat.sub_sub]

end Loop

namespace Represents
variable {s : FlashLogStorage} {ring : RingLog}

/-- From the oldest frame the loop sends all live frames but the first `skip`. -/
theorem sendLoop_live (represents : Represents s ring) (some' : ring.live s.config ≠ [])
    (distinct : ((ring.live s.config).map fun place => place.2.seq).Nodup) (skip : Nat) :
    s.sendLoop skip s.oldestAddr 0 0 = (true, ((ring.live s.config).map fun place => place.2.frame).drop skip) := by
  have follows := Config.next_lt represents.imaged.config ring.current
  obtain ⟨first, rest, shape⟩ := List.exists_cons_of_ne_nil some'
  obtain ⟨front, last, ends⟩ := List.eq_nil_or_concat (ring.live s.config) |>.resolve_left some'
  rw [List.concat_eq_append] at ends
  have oldest := represents.oldest first (by rw [shape]; rfl)
  have newest := (represents.newest last (by rw [ends, List.getLast?_concat]; rfl)).2
  obtain ⟨k, inside, count, most, head, ahead⟩ := RingOrder.stretch_first follows shape
  rw [← shape, ends] at ahead
  have start : first.1 = s.config.base k := by
    rw [RingLog.places] at head
    cases held : ring.records k with
    | nil => rw [held] at head; cases head
    | cons record others => rw [held] at head; cases head; rfl
  rw [ends, List.map_append, List.nodup_append] at distinct
  have others : ∀ place ∈ front, place.2.seq ≠ s.newestSeq := by
    intro place member
    rw [newest]
    exact distinct.2.2 _ (List.mem_map_of_mem member) _ List.mem_cons_self
  have sent := sendLoop_stretch represents.imaged represents.locked skip 0 count 0 inside (by omega) ahead others newest.symm
  rw [oldest, start, sent, ends, Nat.sub_zero]

/-- The dumps send the live frames, whole and in order. -/
theorem dumps (represents : Represents s ring) (distinct : ((ring.live s.config).map fun place => place.2.seq).Nodup) :
    s.sendFramesOldestFirst = (true, (ring.live s.config).map fun place => place.2.frame) ∧
      ∀ count, s.sendLatestFrames count =
        (true, ((ring.live s.config).map fun place => place.2.frame).drop
          (s.validFrameCount - min count s.validFrameCount)) := by
  have total := represents.count
  by_cases empty : ring.live s.config = []
  · have zero : s.validFrameCount = 0 := by rw [total, empty]; rfl
    simp only [sendFramesOldestFirst, sendLatestFrames, represents.initialized, represents.locked, lock, zero, empty,
      Bool.not_true, Bool.false_eq_true, ↓reduceIte, List.map_nil, List.drop_nil, ite_self, implies_true, and_self]
  · have positive : s.validFrameCount ≠ 0 := by
      rw [total]
      exact fun zero => empty (List.eq_nil_of_length_eq_zero zero)
    have loop := represents.sendLoop_live empty distinct
    refine ⟨?_, ?_⟩
    · simp only [sendFramesOldestFirst, represents.initialized, represents.locked, lock, positive, loop, Bool.not_true,
        Bool.false_eq_true, ↓reduceIte, List.drop_zero]
    · intro count
      by_cases none' : count = 0
      · simp only [sendLatestFrames, represents.initialized, represents.locked, lock, none', Bool.not_true,
          Bool.false_eq_true, ↓reduceIte, Nat.zero_min, Nat.sub_zero]
        rw [total, ← List.length_map (f := fun place : Nat × Record => place.2.frame), List.drop_length]
      · have target : (if count > s.validFrameCount then s.validFrameCount else count) = min count s.validFrameCount := by
          split <;> omega
        simp only [sendLatestFrames, represents.initialized, represents.locked, lock, none', positive, loop, target,
          Bool.not_true, Bool.false_eq_true, ↓reduceIte]

end Represents

/-- Dump completeness and order: after any appends from an erased area there is a list of
live frames, the last appended ones, that the index describes; and when their numbers
differ, the full dump sends exactly these and the dump of the latest `count` exactly the
last ones of them. -/
theorem dumps_send_live {s : FlashLogStorage} (config : isConfigValid s.config = true) (working : s.Working)
    (erased : s.Erased) (records : List Record) :
    let running := (s.init true).2.appendAll records
    ∃ live, Indexed running live ∧ live.map Prod.snd <:+ records ∧
      ((live.map fun place => place.2.seq).Nodup →
        running.sendFramesOldestFirst = (true, live.map fun place => place.2.frame) ∧
          ∀ count, running.sendLatestFrames count =
            (true, (live.map fun place => place.2.frame).drop
              (running.validFrameCount - min count running.validFrameCount))) := by
  intro running
  obtain ⟨t, started, sameConfig, works, represents, _, _⟩ := init_erased config working erased
  rw [← sameConfig] at represents
  have run : running = t.appendAll records := by simp only [running, started]
  obtain ⟨same, _, related⟩ := represents.appendAll works records
  rw [← run] at same related
  have suffix := live_suffix represents works (RingLog.live_fresh t.config) records
  rw [← same] at suffix
  exact ⟨_, related.indexed, by rwa [same] at suffix ⊢, related.dumps⟩

theorem dump_oneSector (block : List Record) (some' : block ≠ []) (room : (frameBytes block).length ≤ 4096)
    (distinct : (block.map Record.seq).Nodup) :
    (((blankStorage ⟨0, 8192⟩).init true).2.appendAll block).sendFramesOldestFirst = (true, block.map Record.frame) := by
  obtain ⟨area, represents, _⟩ := appendAll_oneSector block some' room
  have live := live_oneSector block
  rw [← area] at live
  have seqs : (placed 0 block).map (fun place => place.2.seq) = block.map Record.seq := by
    conv_rhs => rw [← map_snd_placed 0 block, List.map_map]
    rfl
  rw [(represents.dumps (by rw [live, seqs]; exact distinct)).1, live, map_frame_placed]

/-- Both dumps of a log of three frames. -/
theorem dumps_send_live_three :
    ∃ running, ((blankStorage ⟨0, 8192⟩).init true).2.appendAll (shortRecords [3, 4, 5]) = running ∧
      running.sendFramesOldestFirst = (true, (shortRecords [3, 4, 5]).map Record.frame) ∧
      running.sendLatestFrames 2 = (true, (shortRecords [4, 5]).map Record.frame) := by
  obtain ⟨live, indexed, suffix, sent⟩ := dumps_send_live (s := blankStorage ⟨0, 8192⟩) (by decide) (blankStorage_working _)
    (blankStorage_erased _) (shortRecords [3, 4, 5])
  have counted := (appendAll_oneSector (shortRecords [3, 4, 5]) (by simp [shortRecords])
    (by rw [length_shortRecords]; decide)).2.2
  have listed : live.map Prod.snd = shortRecords [3, 4, 5] := by
    refine suffix.eq_of_length ?_
    rw [List.length_map, ← indexed.count, counted]
  have frames : (live.map fun place => place.2.frame) = (shortRecords [3, 4, 5]).map Record.frame := by
    rw [← listed, List.map_map]
    rfl
  have seqs : (live.map fun place => place.2.seq) = [3, 4, 5] := by
    have numbers := congrArg (List.map Record.seq) listed
    rwa [List.map_map] at numbers
  obtain ⟨all, latest⟩ := sent (by rw [seqs]; decide)
  have two := latest 2
  rw [frames, counted] at two
  rw [frames] at all
  exact ⟨_, rfl, all, two⟩

end PicoWLogger
