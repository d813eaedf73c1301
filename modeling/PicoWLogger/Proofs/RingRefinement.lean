import PicoWLogger.Proofs.AppendEffect

/-! The storage refines the ring of sectors: each append of a built frame succeeds, and
the cells and the index afterwards are those of the ring with one more record. -/

namespace PicoWLogger
open FlashLogStorage

/-- Locks, status polls and the supply are all in order. -/
structure FlashLogStorage.Working (s : FlashLogStorage) : Prop where
  flash : s.flash.Working
  sharedIo : s.sharedIo = fun _ => true

theorem FlashLogStorage.Working.responsive {s : FlashLogStorage} (working : s.Working) : s.Responsive :=
  ⟨working.flash.polls, working.sharedIo⟩

theorem FlashLogStorage.begun_flash {s : FlashLogStorage} (working : s.Working) (addr : Nat) :
    (s.begun addr).flash.Working := by
  rw [begun]
  split
  · exact ⟨working.flash.polls, by simp [FlashDriver.eraseCells, working.flash.power]⟩
  · exact working.flash

theorem FlashLogStorage.written_working {s : FlashLogStorage} (working : s.Working) (addr : Nat) (data : List UInt8)
    (requests : List FlashRequest) : (s.written addr data requests).Working := by
  have began := begun_flash working addr
  refine ⟨⟨began.polls, by simp [written, FlashDriver.programCells, began.power]⟩, ?_⟩
  rw [written_keeps]
  exact working.sharedIo

section Search
variable {s : FlashLogStorage} {sectors : Nat → Sector}

theorem searchOldest_blank (config : isConfigValid s.config = true) (addr count scanned : Nat)
    (inside : addr + count ≤ s.config.endAddr) (left : scanned + count ≤ s.config.endAddr - s.config.startAddr)
    (blank : ∀ a, addr ≤ a → a < addr + count → s.isValidFrameAt a = none) :
    s.searchOldest (s.wrapAddress addr) scanned = s.searchOldest (s.wrapAddress (addr + count)) (scanned + count) := by
  obtain ⟨_, _, _, flashEnd⟩ := Config.shape config
  induction count generalizing addr scanned with
  | zero => rfl
  | succ count ih =>
    have stays : s.wrapAddress addr = addr := by rw [wrapAddress, if_neg (by omega)]
    have missing := blank addr (Nat.le_refl _) (by omega)
    have moved : u32 (addr + 1) = addr + 1 := by
      rw [u32]
      omega
    have later := ih (addr + 1) (scanned + 1) (by omega) (by omega)
      fun a above below => blank a (by omega) (by omega)
    rw [stays, searchOldest, if_pos (by omega), missing, moved]
    simp only [Option.isSome_none, Bool.false_eq_true, ↓reduceIte]
    rw [later, Nat.add_right_comm addr, Nat.add_right_comm scanned]
    rfl

/-- The search for a new oldest frame finds the first frame in ring order. -/
theorem searchOldest_stretch (imaged : Imaged s sectors) (count scanned : Nat) {k : Nat} (inside : k < s.config.sectors)
    (lap : scanned + 4096 * count = 4096 * s.config.sectors) {first : Nat × Record} {rest : List (Nat × Record)}
    (ahead : RingOrder.stretch s.config.sectors count k (fun j => placed (s.config.base j) (sectors j).records) =
      first :: rest) : s.searchOldest (s.config.base k) scanned = some first.1 := by
  obtain ⟨_, areaEnd, _, _⟩ := Config.shape imaged.config
  induction count generalizing scanned k with
  | zero => cases ahead
  | succ count ih =>
    have sector := Config.base_inside imaged.config inside
    rw [RingOrder.stretch_cons inside] at ahead
    cases held : (sectors k).records with
    | nil =>
      have blank := searchOldest_blank imaged.config (s.config.base k) 4096 scanned
        (by omega) (by omega) fun a above below => imaged.blank inside (by rw [held]; simpa using above) below
      rw [wrapAddress_base imaged.config (by omega), Nat.mod_eq_of_lt inside, wrapAddress_next imaged.config inside] at blank
      rw [held, placed, List.nil_append] at ahead
      rw [blank]
      exact ih (scanned + 4096) (Config.next_lt imaged.config k) (by omega) ahead
    | cons record others =>
      rw [held, placed, List.cons_append] at ahead
      obtain ⟨rfl, _⟩ := List.cons.inj ahead
      have member : (s.config.base k, record) ∈ placed (s.config.base k) (sectors k).records := by
        rw [held, placed]
        exact List.mem_cons_self
      have found := (imaged.valid inside member).1
      rw [searchOldest, if_pos (by omega), found]
      rfl

/-- Giving up the sector at `base` leaves `left` frames counted. An oldest frame in the sector is replaced by
the one that the search behind the sector finds, any other stays. -/
theorem invalidate_leaves {base left : Nat} (inside : base + 4096 < 2 ^ 32)
    (total : s.validFrameCount = s.countSector base + left)
    (found : left ≠ 0 → ∃ addr, searchOldest { s with validFrameCount := left } (s.wrapAddress (base + 4096)) 0 = some addr) :
    let t := s.invalidateFramesInErasedSector base
    t.validFrameCount = left ∧
      (left ≠ 0 →
        if s.oldestAddr ≥ base ∧ s.oldestAddr < base + 4096 then
          searchOldest { s with validFrameCount := left } (s.wrapAddress (base + 4096)) 0 = some t.oldestAddr
        else t.oldestAddr = s.oldestAddr) := by
  intro t
  have sectorEnd : u32 (base + SECTOR_SIZE) = base + 4096 := by
    simp only [u32, SECTOR_SIZE]
    omega
  by_cases empty : s.validFrameCount = 0
  · have same : t = s := by simp only [t, invalidateFramesInErasedSector, empty, ↓reduceIte]
    rw [same]
    exact ⟨by omega, fun some' => absurd (by omega) some'⟩
  by_cases all : s.countSector base ≥ s.validFrameCount
  · have zero : t.validFrameCount = 0 := by simp only [t, invalidateFramesInErasedSector, empty, all, ↓reduceIte]
    exact ⟨by omega, fun some' => absurd (by omega) some'⟩
  have fewer : s.validFrameCount - s.countSector base = left := by omega
  by_cases held : s.oldestAddr ≥ base ∧ s.oldestAddr < base + 4096
  · obtain ⟨addr, search⟩ := found (by omega)
    have result : t = { s with validFrameCount := left, oldestAddr := addr } := by
      simp only [t, invalidateFramesInErasedSector, empty, all, sectorEnd, held, fewer, and_self, ↓reduceIte]
      rw [show wrapAddress { s with validFrameCount := left } (base + 4096) = s.wrapAddress (base + 4096) from rfl, search]
    rw [result]
    exact ⟨rfl, fun _ => by rw [if_pos held]; exact search⟩
  · have result : t = { s with validFrameCount := left } := by
      simp only [t, invalidateFramesInErasedSector, empty, all, sectorEnd, held, fewer, ↓reduceIte]
    rw [result]
    exact ⟨rfl, fun _ => by rw [if_neg held]⟩

/-- Giving up the sector at `base k` leaves the count of the other frames and, where the
oldest frame was known, the oldest of them. -/
theorem invalidate_imaged (imaged : Imaged s sectors) {k : Nat} (inside : k < s.config.sectors)
    (count : s.validFrameCount = (Imaged.inOrder s.config sectors).length) :
    let places := fun j => placed (s.config.base j) (sectors j).records
    let t := s.invalidateFramesInErasedSector (s.config.base k)
    t.validFrameCount = (RingOrder.others s.config.sectors k places).length ∧
      ((∀ first ∈ (RingOrder.unroll s.config.sectors k places).head?, s.oldestAddr = first.1) →
        ∀ first ∈ (RingOrder.others s.config.sectors k places).head?, t.oldestAddr = first.1) := by
  intro places t
  have config := imaged.config
  obtain ⟨_, _, _, flashEnd⟩ := Config.shape config
  have sector := Config.base_inside config inside
  have counted := imaged.countSector inside
  have split := RingOrder.unroll_eq inside places
  have total : s.validFrameCount = s.countSector (s.config.base k) + (RingOrder.others s.config.sectors k places).length := by
    rw [count, counted, Imaged.inOrder, ← (RingOrder.unroll_perm s.config.sectors k places).length_eq, split,
      List.length_append, length_placed]
  obtain ⟨left, isLeft⟩ : ∃ left, (RingOrder.others s.config.sectors k places).length = left := ⟨_, rfl⟩
  have decreased : Imaged { s with validFrameCount := left } sectors := imaged.congr rfl fun _ _ _ => rfl
  have search {first : Nat × Record} {rest : List (Nat × Record)}
      (others : RingOrder.others s.config.sectors k places = first :: rest) :
      searchOldest { s with validFrameCount := left } (s.wrapAddress (s.config.base k + 4096)) 0 = some first.1 := by
    have behind := RingOrder.unroll_next inside places
    rw [others] at behind
    rw [wrapAddress_next config inside]
    exact searchOldest_stretch decreased s.config.sectors 0 (Config.next_lt config k) (Nat.zero_add _) behind
  rw [isLeft] at total
  obtain ⟨leaves, replaced⟩ := invalidate_leaves (by omega) total fun some' => by
    obtain ⟨first, rest, others⟩ := List.exists_cons_of_length_pos (by omega : 0 < (RingOrder.others s.config.sectors k places).length)
    exact ⟨first.1, search others⟩
  refine ⟨leaves.trans isLeft.symm, fun oldest head member => ?_⟩
  obtain ⟨rest, others⟩ : ∃ rest, RingOrder.others s.config.sectors k places = head :: rest := List.head?_eq_some_iff.mp member
  have replaced := replaced (by rw [← isLeft, others]; exact Nat.succ_ne_zero _)
  split at replaced
  next => exact (Option.some.inj ((search others).symm.trans replaced)).symm
  next held =>
    have nothing : places k = [] := by
      cases records : places k with
      | nil => rfl
      | cons head tail =>
        have start := oldest head (by rw [split, records]; rfl)
        have member : head ∈ placed (s.config.base k) (sectors k).records := by
          change head ∈ places k
          rw [records]
          exact List.mem_cons_self
        have bounds := placed_bounds member
        have fits := (imaged.holds k inside).fits
        have positive := head.2.size_pos
        rw [Sector.bytes, List.length_append] at fits
        exact absurd ⟨by omega, by omega⟩ held
    refine replaced.trans (oldest head ?_)
    rw [split, nothing, List.nil_append]
    exact member

end Search

/-- The area holds the frames of the ring, and the index describes them. -/
structure Represents (s : FlashLogStorage) (ring : RingLog) : Prop where
  initialized : s.initialized = true
  locked : s.mutexCreated = true
  imaged : Imaged s fun k => .whole (ring.records k)
  current : ring.current < s.config.sectors
  write : s.writeAddr =
    if 0 < ring.used ring.current ∧ ring.used ring.current < 4096 then
      s.config.base ring.current + ring.used ring.current
    else s.config.base (s.config.next ring.current)
  count : s.validFrameCount = (ring.live s.config).length
  oldest : ∀ first ∈ (ring.live s.config).head?, s.oldestAddr = first.1
  newest : ∀ last ∈ (ring.live s.config).getLast?, s.newestAddr = last.1 ∧ s.newestSeq = last.2.seq

namespace Represents
variable {s : FlashLogStorage} {ring : RingLog}

/-- The records the next sector to begin does not hold, oldest first. -/
def kept (config : Config) (ring : RingLog) : List (Nat × Record) :=
  RingOrder.others config.sectors (config.next ring.current) (ring.places config)

theorem live_eq (config : isConfigValid s.config = true) (ring : RingLog) :
    ring.live s.config = ring.places s.config (s.config.next ring.current) ++ kept s.config ring :=
  RingOrder.unroll_eq (Config.next_lt config _) _

/-- Where the next append of a record goes. -/
theorem appendAddress (represents : Represents s ring) (record : Record) :
    s.appendAddress record.size =
      if ring.Extends record then s.config.base ring.current + ring.used ring.current
      else s.config.base (s.config.next ring.current) := by
  have config := represents.imaged.config
  have small := record.size_le
  have positive := record.size_pos
  have write := represents.write
  have follows := Config.next_lt config ring.current
  simp only [LOG_FRAME_MAX_SIZE, LOG_FRAME_MAGIC_SIZE, LOG_FRAME_HEADER_SIZE, LOG_FRAME_MAX_PAYLOAD, LOG_PAYLOAD_MAX,
    LOG_FRAME_CRC_SIZE] at small
  by_cases part : 0 < ring.used ring.current ∧ ring.used ring.current < 4096
  · rw [if_pos part] at write
    by_cases room : ring.used ring.current + record.size ≤ 4096
    · have extends' : ring.Extends record := ⟨part.1, room⟩
      rw [if_pos extends', ← write]
      exact appendAddress_fits config represents.current (by omega) (by omega) (by omega)
    · rw [if_neg fun extends' => room extends'.2]
      exact appendAddress_next config represents.current (by omega) (by omega) (by omega) (by omega)
  · rw [if_neg part] at write
    have begins : ¬ ring.Extends record := by
      rintro ⟨some', room⟩
      exact part ⟨some', by omega⟩
    rw [if_neg begins, ← write]
    exact appendAddress_fits config follows (by omega) (by omega) (by omega)

theorem live_perm (config : Config) (ring : RingLog) :
    (ring.live config).Perm ((List.range config.sectors).flatMap (ring.places config)) :=
  RingOrder.unroll_perm _ _ _

theorem invalidate (represents : Represents s ring) :
    let t := s.invalidateFramesInErasedSector (s.config.base (s.config.next ring.current))
    t.validFrameCount = (kept s.config ring).length ∧ ∀ first ∈ (kept s.config ring).head?, t.oldestAddr = first.1 := by
  have follows := Config.next_lt represents.imaged.config ring.current
  have total := represents.count.trans (live_perm s.config ring).length_eq
  obtain ⟨count, oldest⟩ := invalidate_imaged represents.imaged follows total
  exact ⟨count, oldest represents.oldest⟩

private theorem bytes_update (records : Nat → List Record) (k : Nat) (items : List Record) :
    (fun j => frameBytes (Function.update records k items j)) =
      Function.update (fun j => frameBytes (records j)) k (frameBytes items) := by
  funext j
  exact Function.apply_update (fun _ => frameBytes) records k items j

private theorem places_update (config : Config) (records : Nat → List Record) (current k : Nat) (items : List Record) :
    RingLog.places config { records := Function.update records k items, current } =
      Function.update (fun j => placed (config.base j) (records j)) k (placed (config.base k) items) := by
  funext j
  exact Function.apply_update (fun j => placed (config.base j)) records k items j

/-- The ring with one more record: the sector given up, if any, and the new frame. -/
theorem live_append (config : isConfigValid s.config = true) (current : ring.current < s.config.sectors)
    (record : Record) :
    (ring.append s.config record).live s.config =
      if ring.Extends record then
        ring.live s.config ++ [(s.config.base ring.current + ring.used ring.current, record)]
      else kept s.config ring ++ [(s.config.base (s.config.next ring.current), record)] := by
  by_cases extends' : ring.Extends record
  · simp only [RingLog.append, if_pos extends', RingLog.live]
    rw [places_update, Config.next, RingOrder.unroll_next current, RingOrder.unroll_next current,
      RingOrder.others_update current, Function.update_self, placed_append, ← List.append_assoc]
    rfl
  · have follows := Config.next_lt config ring.current
    simp only [RingLog.append, if_neg extends', RingLog.live]
    rw [places_update, Config.next, RingOrder.unroll_next follows, RingOrder.others_update follows,
      Function.update_self]
    rfl

/-- A record that goes behind others leaves the rest of the area alone. -/
theorem begun_extends (represents : Represents s ring) {record : Record} (extends' : ring.Extends record) :
    s.begun (s.appendAddress record.size) = s := by
  have place := represents.appendAddress record
  have sector := Config.base_inside represents.imaged.config represents.current
  have used : 0 < ring.used ring.current ∧ ring.used ring.current + record.size ≤ 4096 := extends'
  have positive := record.size_pos
  rw [if_pos extends'] at place
  have inSector : isSectorStart (s.appendAddress record.size) = false := by
    simp only [isSectorStart, SECTOR_SIZE, decide_eq_false_iff_not]
    omega
  simp only [begun, inSector, Bool.false_eq_true, ↓reduceIte]

theorem begun_begins (represents : Represents s ring) {record : Record} (begins : ¬ ring.Extends record) :
    s.begun (s.appendAddress record.size) =
      { s.invalidateFramesInErasedSector (s.config.base (s.config.next ring.current)) with
        flash := s.flash.eraseCells (s.config.base (s.config.next ring.current)) } := by
  have place := represents.appendAddress record
  have sector := Config.base_inside represents.imaged.config (Config.next_lt represents.imaged.config ring.current)
  rw [if_neg begins] at place
  have atStart : isSectorStart (s.appendAddress record.size) = true := by
    simp only [isSectorStart, SECTOR_SIZE, decide_eq_true_eq]
    omega
  simp only [begun, atStart, ↓reduceIte]
  rw [place]

private theorem reaching_working {flash : FlashDriver} (working : flash.Working) (data : List UInt8) :
    flash.reaching data = data := by
  simp only [FlashDriver.reaching, working.power]

theorem written_imaged (represents : Represents s ring) (working : s.Working) (record : Record)
    (requests : List FlashRequest) :
    Imaged (s.written (s.appendAddress record.size) record.frame requests)
      fun k => .whole ((ring.append s.config record).records k) := by
  have config := represents.imaged.config
  have area : (s.written (s.appendAddress record.size) record.frame requests).config = s.config := by
    rw [written_keeps]
    rfl
  have holding : Holding s.flash s.config fun k => frameBytes (ring.records k) := by
    intro k inside
    simpa using represents.imaged.holds k inside
  have follows := Config.next_lt config ring.current
  have place := represents.appendAddress record
  have reach := reaching_working (begun_flash working (s.appendAddress record.size)) record.frame
  apply Imaged.of_whole (by rwa [area])
  rw [area]
  suffices programmed : Holding ((s.begun (s.appendAddress record.size)).flash.programCells
      (s.appendAddress record.size) record.frame) s.config fun k => frameBytes ((ring.append s.config record).records k) from
    fun k inside => (programmed k inside).congr fun _ _ _ => rfl
  by_cases extends' : ring.Extends record
  · have programmed := holding.program represents.current record.frame (by rw [Record.length_frame]; exact extends'.2)
    rw [represents.begun_extends extends'] at reach ⊢
    rw [if_pos extends'] at place
    simp only [RingLog.append, if_pos extends']
    rw [bytes_update, frameBytes_append, frameBytes_cons, frameBytes_nil, List.append_nil, place]
    rwa [reach] at programmed
  · have erased := holding.erase (by simp [working.flash.power]) (s.config.next ring.current)
    have programmed := erased.program follows record.frame (by
      rw [Function.update_self, Record.length_frame, List.length_nil]
      exact le_trans (Nat.le_of_eq (Nat.zero_add _)) (le_trans record.size_le (by decide)))
    rw [Function.update_self, Function.update_idem, List.nil_append, List.length_nil, Nat.add_zero] at programmed
    rw [represents.begun_begins extends'] at reach ⊢
    rw [if_neg extends'] at place
    simp only [RingLog.append, if_neg extends']
    rw [bytes_update, frameBytes_cons, frameBytes_nil, List.append_nil, place]
    rwa [reach] at programmed

private theorem represents_updated {t : FlashLogStorage} {before : List (Nat × Record)} {place : Nat × Record}
    (initialized : t.initialized = true) (locked : t.mutexCreated = true)
    (imaged : Imaged t fun k => .whole (ring.records k)) (current : ring.current < t.config.sectors)
    (write : t.writeAddr =
      if 0 < ring.used ring.current ∧ ring.used ring.current < 4096 then
        t.config.base ring.current + ring.used ring.current
      else t.config.base (t.config.next ring.current))
    (live : ring.live t.config = before ++ [place]) (count : t.validFrameCount = before.length)
    (oldest : ∀ first ∈ before.head?, t.oldestAddr = first.1) :
    Represents (t.updateIndexAfterAppend place.1 place.2.header) ring := by
  have keeps := updateIndex_keeps t place.1 place.2.header
  have sameConfig : (t.updateIndexAfterAppend place.1 place.2.header).config = t.config := by
    rw [keeps]
    rfl
  have last : (ring.live t.config).getLast? = some place := by rw [live, List.getLast?_concat]
  constructor
  · rw [keeps]
    exact initialized
  · rw [keeps]
    exact locked
  · exact imaged.congr sameConfig fun _ _ _ => by rw [keeps]; rfl
  · rwa [sameConfig]
  · rw [sameConfig, ← write, updateIndexAfterAppend]
    split <;> rfl
  · rw [sameConfig, live, List.length_append, List.length_singleton, ← count, updateIndexAfterAppend]
    split
    next empty => rw [empty]
    next => rfl
  · rw [sameConfig, live, updateIndexAfterAppend]
    split
    next empty =>
      have none' : before = [] := List.eq_nil_of_length_eq_zero (by omega)
      rw [none', List.nil_append, List.head?_cons]
      rintro _ ⟨⟩
      rfl
    next some' =>
      obtain ⟨first, rest, shape⟩ := List.exists_cons_of_length_pos (l := before) (by omega)
      rw [shape] at oldest ⊢
      exact oldest
  · rw [sameConfig, last, updateIndexAfterAppend]
    rintro _ ⟨⟩
    split <;> exact ⟨rfl, rfl⟩

theorem append_current (config : Config) (ring : RingLog) (record : Record) :
    (ring.append config record).current =
        (if ring.Extends record then ring.current else config.next ring.current) ∧
      ((ring.append config record).used (ring.append config record).current =
        if ring.Extends record then ring.used ring.current + record.size else record.size) := by
  rw [RingLog.append]
  split
  · refine ⟨rfl, ?_⟩
    simp only [RingLog.used, Function.update_self, frameBytes_append, frameBytes_cons, frameBytes_nil, List.append_nil,
      List.length_append, Record.length_frame]
  · refine ⟨rfl, ?_⟩
    simp only [RingLog.used, Function.update_self, frameBytes_cons, frameBytes_nil, List.append_nil,
      Record.length_frame]

private theorem written_write (represents : Represents s ring) (record : Record) :
    s.wrapAddress (s.appendAddress record.size + record.size) =
      let ring' := ring.append s.config record
      if 0 < ring'.used ring'.current ∧ ring'.used ring'.current < 4096 then
        s.config.base ring'.current + ring'.used ring'.current
      else s.config.base (s.config.next ring'.current) := by
  have config := represents.imaged.config
  have follows := Config.next_lt config ring.current
  have positive := record.size_pos
  have small := record.size_lt
  obtain ⟨sector, used⟩ := append_current s.config ring record
  simp only [used]
  simp only [sector]
  rw [represents.appendAddress record]
  by_cases extends' : ring.Extends record
  · have within := Config.base_inside config represents.current
    have room : 0 < ring.used ring.current ∧ ring.used ring.current + record.size ≤ 4096 := extends'
    simp only [if_pos extends', Nat.add_assoc]
    by_cases full : ring.used ring.current + record.size < 4096
    · rw [if_pos ⟨by omega, full⟩, wrapAddress, if_neg (by omega)]
    · rw [if_neg (by omega), show ring.used ring.current + record.size = 4096 by omega]
      exact wrapAddress_next config represents.current
  · have within := Config.base_inside config follows
    simp only [if_neg extends']
    rw [if_pos ⟨positive, small⟩, wrapAddress, if_neg (by omega)]

theorem appendAddress_inside (represents : Represents s ring) (record : Record) :
    s.appendAddress record.size + record.size ≤ s.config.endAddr := by
  have config := represents.imaged.config
  have small := record.size_lt
  have first := Config.base_inside config represents.current
  have second := Config.base_inside config (Config.next_lt config ring.current)
  rw [represents.appendAddress record]
  split
  next extends' =>
    have room : ring.used ring.current + record.size ≤ 4096 := extends'.2
    omega
  next => omega

theorem append_member (represents : Represents s ring) (record : Record) :
    (s.appendAddress record.size, record) ∈
      (ring.append s.config record).places s.config (ring.append s.config record).current := by
  rw [RingLog.places, represents.appendAddress record, (append_current s.config ring record).1]
  by_cases extends' : ring.Extends record
  · simp only [if_pos extends', RingLog.append, Function.update_self, placed_append]
    exact List.mem_append_right _ (List.mem_singleton.mpr rfl)
  · simp only [if_neg extends', RingLog.append, Function.update_self, placed, List.mem_singleton]

theorem begun_index (represents : Represents s ring) (record : Record) :
    let t := s.begun (s.appendAddress record.size)
    let before := if ring.Extends record then ring.live s.config else kept s.config ring
    t.validFrameCount = before.length ∧ ∀ first ∈ before.head?, t.oldestAddr = first.1 := by
  by_cases extends' : ring.Extends record
  · simp only [if_pos extends', represents.begun_extends extends']
    exact ⟨represents.count, represents.oldest⟩
  · simp only [if_neg extends', represents.begun_begins extends']
    exact represents.invalidate

theorem append_current_lt (represents : Represents s ring) (record : Record) :
    (ring.append s.config record).current < s.config.sectors := by
  rw [(append_current s.config ring record).1]
  split
  · exact represents.current
  · exact Config.next_lt represents.imaged.config ring.current

/-- The live records behind an append, with the place of the new one. -/
theorem live_appended (represents : Represents s ring) (record : Record) :
    (ring.append s.config record).live s.config =
      (if ring.Extends record then ring.live s.config else kept s.config ring) ++ [(s.appendAddress record.size, record)] := by
  rw [live_append represents.imaged.config represents.current record, represents.appendAddress record]
  split <;> rfl

/-- What an append has programmed passes the check, and the index that follows is that of the ring. -/
theorem written_represents (represents : Represents s ring) (working : s.Working) (record : Record)
    (requests : List FlashRequest) :
    let addr := s.appendAddress record.size
    let t := s.written addr record.frame requests
    t.isValidFrameAt addr = some (record.header, record.size) ∧ t.config = s.config ∧
      Represents (t.updateIndexAfterAppend addr record.header) (ring.append s.config record) := by
  intro addr t
  have keeps : t = { s.withIndex t.index with flash := t.flash } := written_keeps s addr record.frame requests
  have sameConfig : t.config = s.config := by
    rw [keeps]
    rfl
  have image : Imaged t fun k => .whole ((ring.append s.config record).records k) :=
    represents.written_imaged working record requests
  have current : (ring.append s.config record).current < t.config.sectors := by
    rw [sameConfig]
    exact represents.append_current_lt record
  have live := represents.live_appended record
  have member := represents.append_member record
  have found : t.isValidFrameAt addr = some (record.header, record.size) :=
    (image.valid current (by rw [sameConfig]; exact member)).1
  have index := represents.begun_index record
  refine ⟨found, sameConfig, represents_updated ?_ ?_ image current ?_ (by rw [sameConfig]; exact live) index.1 index.2⟩
  · rw [keeps]
    exact represents.initialized
  · rw [keeps]
    exact represents.locked
  · rw [sameConfig, ← represents.written_write record]
    exact congrArg (fun len => s.wrapAddress (addr + len)) record.length_frame

/-- An append of a built frame succeeds and is an append to the ring. -/
theorem append_refines (represents : Represents s ring) (working : s.Working) (record : Record) :
    ∃ t, s.append record.frame = (true, t) ∧ t.config = s.config ∧ t.Working ∧
      Represents t (ring.append s.config record) := by
  have config := represents.imaged.config
  have small := record.size_lt
  have inside := represents.appendAddress_inside record
  have goes : s.appendAddress record.frame.length = s.appendAddress record.size := by rw [record.length_frame]
  obtain ⟨requests, result⟩ := append_responsive working.responsive config represents.initialized represents.locked
    record.frame (by simpa using record.size_pos) (by rw [record.length_frame]; omega) goes
    (by rw [record.length_frame]; exact inside)
  obtain ⟨found, sameConfig, represents'⟩ := represents.written_represents working record requests
  have works := written_working working (s.appendAddress record.size) record.frame requests
  rw [found] at result
  refine ⟨_, result, ?_, ?_, represents'⟩
  · rw [updateIndex_keeps]
    exact sameConfig
  · rw [updateIndex_keeps]
    exact ⟨works.flash, works.sharedIo⟩

end Represents

end PicoWLogger
