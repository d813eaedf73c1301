import PicoWLogger.Proofs.CutAppend
import PicoWLogger.Proofs.Restart

/-! What the sectors hold after cuts: the frames programmed whole, and torn remains that
the recovery scan passes over. -/

namespace PicoWLogger
open FlashLogStorage

def InSector (base : Nat) (place : Nat × Record) : Prop := base ≤ place.1 ∧ place.1 < base + 4096

instance (base : Nat) (place : Nat × Record) : Decidable (InSector base place) := inferInstanceAs (Decidable (_ ∧ _))

/-- The sectors hold the frames programmed whole, and torn remains start like a frame. -/
structure Contents (s : FlashLogStorage) (complete : List (Nat × Record)) (sectors : Nat → Sector) : Prop where
  config : isConfigValid s.config = true
  holding : Holding s.flash s.config fun k => (sectors k).bytes
  torn : ∀ k < s.config.sectors, ∀ byte ∈ (sectors k).torn.head?, byte = 0xA5
  stored : ∀ k < s.config.sectors, complete.filter (fun place => InSector (s.config.base k) place) =
    placed (s.config.base k) (sectors k).records
  area : ∀ place ∈ complete, ∃ k < s.config.sectors, InSector (s.config.base k) place

namespace Contents
variable {s : FlashLogStorage} {complete : List (Nat × Record)} {sectors : Nat → Sector}

theorem congr (contents : Contents s complete sectors) {t : FlashLogStorage} (sameConfig : t.config = s.config)
    (sameCells : t.flash.cells = s.flash.cells) : Contents t complete sectors := by
  constructor
  · rw [sameConfig]
    exact contents.config
  · rw [sameConfig]
    exact fun k inside => (contents.holding k inside).congr fun a _ _ => by rw [sameCells]
  · rw [sameConfig]
    exact contents.torn
  · rw [sameConfig]
    exact contents.stored
  · rw [sameConfig]
    exact contents.area

theorem imaged (contents : Contents s complete sectors)
    (honest : ∀ addr, (s.isValidFrameAt addr).isSome → addr ∈ complete.map Prod.fst) : Imaged s sectors where
  config := contents.config
  holds := contents.holding
  quiet k inside addr above below := by
    rw [← Option.not_isSome_iff_eq_none]
    intro valid
    obtain ⟨place, member, rfl⟩ := List.mem_map.mp (honest addr valid)
    have fits : (sectors k).bytes.length ≤ 4096 := (contents.holding k inside).fits
    have here : place ∈ placed (s.config.base k) (sectors k).records := by
      rw [← contents.stored k inside]
      exact List.mem_filter.mpr ⟨member, decide_eq_true ⟨by omega, by omega⟩⟩
    have bounds := placed_bounds here
    have positive := place.2.size_pos
    omega

theorem perm (contents : Contents s complete sectors) : complete.Perm (Imaged.inOrder s.config sectors) := by
  have parts := RingOrder.perm_parts (fun k place => decide (InSector (s.config.base k) place)) (by
      intro place member
      obtain ⟨k, inside, here⟩ := contents.area place member
      refine ⟨k, inside, ?_⟩
      intro j
      by_cases same : j = k
      · simp [same, here]
      · have apart := s.config.base_apart same
        have outside : ¬ InSector (s.config.base j) place := by
          simp only [InSector] at here ⊢
          omega
        simp [same, outside])
  have lists : ((List.range s.config.sectors).flatMap fun k =>
      complete.filter fun place => decide (InSector (s.config.base k) place)) = Imaged.inOrder s.config sectors := by
    apply List.flatMap_congr
    intro k member
    exact contents.stored k (List.mem_range.mp member)
  rwa [lists] at parts

/-- A frame with the greatest number is the last of its sector. -/
private theorem newest_last (contents : Contents s complete sectors) {base : UInt32}
    (increasing : complete.Pairwise fun a b => SerialOrder.offset base a.2.seq < SerialOrder.offset base b.2.seq)
    {k : Nat} (inside : k < s.config.sectors) {place : Nat × Record}
    (member : place ∈ placed (s.config.base k) (sectors k).records)
    (greatest : ∀ other ∈ complete, SerialOrder.offset base other.2.seq ≤ SerialOrder.offset base place.2.seq) :
    place.1 + place.2.size = s.config.base k + (frameBytes (sectors k).records).length := by
  apply placed_last
  have part : (placed (s.config.base k) (sectors k).records).Sublist complete := by
    rw [← contents.stored k inside]
    exact List.filter_sublist
  have ordered := increasing.sublist part
  rcases List.eq_nil_or_concat (placed (s.config.base k) (sectors k).records) with none' | ⟨front, last, shape⟩
  · rw [none'] at member
    cases member
  · rw [List.concat_eq_append] at shape
    rw [shape] at member ordered part ⊢
    rw [List.getLast?_concat]
    rcases List.mem_append.mp member with earlier | same
    · have less := (List.pairwise_append.mp ordered).2.2 place earlier last List.mem_cons_self
      have bound := greatest last (part.subset (List.mem_append_right _ List.mem_cons_self))
      exact absurd less (not_lt.mpr bound)
    · rw [List.mem_singleton.mp same]
      rfl

private theorem escape_boundary {t : FlashLogStorage} (config : isConfigValid t.config = true) {k : Nat}
    (inside : k < t.config.sectors) (write : t.writeAddr = t.config.base k) : WritePosition t.escapeDirty sectors := by
  have sector := Config.base_inside config inside
  cases erased : t.isErasedAt t.writeAddr with
  | true =>
    rw [escapeDirty_clean erased]
    exact .boundary k inside write
  | false =>
    rw [escapeDirty_dirty erased]
    refine .boundary (t.config.next k) (Config.next_lt config k) ?_
    change t.wrapAddress (nextSectorAddress t.writeAddr) = _
    rw [nextSectorAddress_inside config inside (by omega) (by omega), wrapAddress_next config inside]

/-- Behind the newest frame of a sector the probe tells torn remains from erased cells. -/
private theorem escape_middle (contents : Contents s complete sectors) {t : FlashLogStorage} (sameConfig : t.config = s.config)
    (sameFlash : t.flash = s.flash) {k : Nat} (inside : k < s.config.sectors)
    (some' : 0 < (frameBytes (sectors k).records).length)
    (write : t.writeAddr = t.wrapAddress (s.config.base k + (frameBytes (sectors k).records).length)) :
    WritePosition t.escapeDirty sectors := by
  have config : isConfigValid t.config = true := by rw [sameConfig]; exact contents.config
  have holds : Holds s.flash (s.config.base k) (sectors k).bytes := contents.holding k inside
  have fits := holds.fits
  have sector := Config.base_inside contents.config inside
  rw [Sector.bytes, List.length_append] at fits
  by_cases full : (frameBytes (sectors k).records).length = 4096
  · apply escape_boundary config (Config.next_lt config k)
    rw [write, full, ← sameConfig]
    exact wrapAddress_next config (by rwa [sameConfig])
  · have stays : t.writeAddr = s.config.base k + (frameBytes (sectors k).records).length := by
      rw [write, wrapAddress, sameConfig, if_neg (by omega)]
    cases erased : t.isErasedAt t.writeAddr with
    | true =>
      have cell := ((isErasedAt_iff config _).mp erased).2.2
      rw [stays, sameFlash, holds.cells _ (by omega), Sector.bytes, List.getD_append_right _ _ _ _ (Nat.le_refl _),
        Nat.sub_self] at cell
      have clean : (sectors k).torn = [] := by
        cases remains : (sectors k).torn with
        | nil => rfl
        | cons head tail =>
          have magic := contents.torn k inside head (by rw [remains]; rfl)
          rw [remains, List.getD_cons_zero, magic] at cell
          exact absurd cell (by decide)
      rw [escapeDirty_clean erased]
      exact .middle k (by rwa [sameConfig]) clean some' (by omega) (by rw [stays, sameConfig])
    | false =>
      rw [escapeDirty_dirty erased]
      refine .boundary (t.config.next k) (Config.next_lt config k) ?_
      change t.wrapAddress (nextSectorAddress t.writeAddr) = _
      rw [← sameConfig] at inside stays sector
      rw [nextSectorAddress_inside config inside (by omega) (by omega), wrapAddress_next config inside]

/-- After a restart the frames programmed whole are counted and the write address is fit
for the next append. -/
theorem restart (contents : Contents s complete sectors) (imaged : Imaged s sectors)
    (ordered : SerialOrder.Ascending (complete.map fun place => place.2.seq)) :
    ∃ index, s.restart = (FlashLogStorage.new s.flash s.config s.sharedIo).started.withIndex index ∧
      index.validFrameCount = complete.length ∧ WritePosition s.restart sectors := by
  obtain ⟨fresh, isFresh⟩ : ∃ fresh, (FlashLogStorage.new s.flash s.config s.sharedIo).started = fresh := ⟨_, rfl⟩
  have sameConfig : fresh.config = s.config := by rw [← isFresh]; rfl
  have sameFlash : fresh.flash = s.flash := by rw [← isFresh]; rfl
  have restarted : s.restart = fresh.rebuildIndexFromFlash := by rw [restart_rebuilds contents.config, isFresh]
  have scanned : fresh.scanner.hits fresh.config.endAddr fresh.config.startAddr =
      (Imaged.inOrder s.config sectors).map hitOf := by
    rw [(imaged.congr sameConfig fun _ _ _ => by rw [sameFlash]).hits, sameConfig]
  have perm := contents.perm
  rw [isFresh, restarted, rebuildIndexFromFlash_keeps]
  refine ⟨_, rfl, ?_⟩
  rw [← rebuildIndexFromFlash_keeps]
  have escapeCount (t : FlashLogStorage) : t.escapeDirty.validFrameCount = t.validFrameCount := by
    rw [escapeDirty]
    split <;> rfl
  by_cases empty : complete = []
  · have nothing : fresh.scanner.hits fresh.config.endAddr fresh.config.startAddr = [] := by
      rw [scanned, List.map_eq_nil_iff]
      exact (empty ▸ perm).symm.eq_nil
    rw [rebuild_none nothing]
    refine ⟨(escapeCount _).trans (by rw [empty]; rfl), ?_⟩
    have config : isConfigValid fresh.config = true := by rw [sameConfig]; exact contents.config
    exact escape_boundary (k := 0) config (Config.shape config).2.2.1 (by simp [withIndex, startIndex, Config.base])
  · obtain ⟨base, window, increasing⟩ := ordered.offsets
    rw [List.pairwise_map] at increasing
    have listed {place : Nat × Record} : place ∈ Imaged.inOrder s.config sectors ↔ place ∈ complete := perm.mem_iff.symm
    obtain ⟨oldest, _, newest, isNewest, rebuilt⟩ := rebuild_some base scanned
      (fun none' => empty (perm.trans (.of_eq (List.map_eq_nil_iff.mp none'))).eq_nil) (fun hit member => by
        obtain ⟨place, here, rfl⟩ := List.mem_map.mp member
        exact window _ (List.mem_map_of_mem (listed.mp here)))
    obtain ⟨place, here, same⟩ := List.mem_map.mp (List.argmax_mem isNewest)
    obtain ⟨k, range, member⟩ := List.mem_flatMap.mp here
    have inside := List.mem_range.mp range
    have greatest : ∀ other ∈ complete, SerialOrder.offset base other.2.seq ≤ SerialOrder.offset base place.2.seq := by
      intro other otherMember
      have bound := List.le_of_mem_argmax (List.mem_map_of_mem (listed.mpr otherMember)) isNewest
      rwa [← same] at bound
    have last := contents.newest_last increasing inside member greatest
    have small := (Config.shape contents.config).2.2.2
    have sector := Config.base_inside contents.config inside
    have fits : (sectors k).bytes.length ≤ 4096 := (contents.holding k inside).fits
    rw [Sector.bytes, List.length_append] at fits
    have wrap : u32 (place.1 + place.2.size) = s.config.base k + (frameBytes (sectors k).records).length := by
      rw [last, u32]
      omega
    have positive := place.2.size_pos
    have low := placed_bounds member
    rw [rebuilt]
    refine ⟨?_, contents.escape_middle sameConfig sameFlash inside (by omega) ?_⟩
    · rw [perm.length_eq, ← List.length_map (f := hitOf)]
      exact escapeCount _
    · rw [← same]
      simp only [withIndex, scannedIndex, hitOf, wrap]
      rfl

end Contents

section Advance
variable {s : FlashLogStorage} {complete : List (Nat × Record)} {sectors : Nat → Sector}

theorem outliving_sublist (begins : Bool) (addr : Nat) (places : List (Nat × Record)) :
    (outliving begins addr places).Sublist places := by
  rw [outliving]
  split
  · exact List.filter_sublist
  · exact List.Sublist.refl _

theorem outliving_mono {begins : Bool} {addr : Nat} {some' all : List (Nat × Record)} (part : some' ⊆ all) :
    outliving begins addr some' ⊆ outliving begins addr all := by
  simp only [outliving]
  split
  · intro place member
    obtain ⟨here, outside⟩ := List.mem_filter.mp member
    exact List.mem_filter.mpr ⟨part here, outside⟩
  · exact part

private theorem outliving_stored (contents : Contents s complete sectors) {record : Record} {k : Nat} {front : List Record}
    (target : Target s sectors record k front) :
    let kept := outliving (isSectorStart (s.appendAddress record.size)) (s.appendAddress record.size) complete
    (∀ j < s.config.sectors, j ≠ k →
        kept.filter (fun place => InSector (s.config.base j) place) = placed (s.config.base j) (sectors j).records) ∧
      kept.filter (fun place => InSector (s.config.base k) place) = placed (s.config.base k) front := by
  intro kept
  have place := target.place
  by_cases begins : isSectorStart (s.appendAddress record.size) = true
  · have none' := target.begins.mp begins
    subst none'
    rw [frameBytes_nil, List.length_nil, Nat.add_zero] at place
    have isKept : kept = complete.filter fun place =>
        ¬ (s.config.base k ≤ place.1 ∧ place.1 < s.config.base k + SECTOR_SIZE) := by
      simp only [kept, outliving, begins, ↓reduceIte]
      rw [place]
    refine ⟨?_, ?_⟩
    · intro j inside different
      have apart := s.config.base_apart different
      rw [isKept, List.filter_filter, ← contents.stored j inside]
      apply List.filter_congr
      intro other _
      rw [← Bool.decide_and]
      apply decide_eq_decide.mpr
      simp only [InSector, SECTOR_SIZE]
      omega
    · rw [isKept, List.filter_filter, List.filter_eq_nil_iff.mpr]
      · rfl
      · intro other _
        rw [← Bool.decide_and, decide_eq_true_eq]
        simp only [InSector, SECTOR_SIZE]
        omega
  · have some' : front ≠ [] := fun none' => begins (target.begins.mpr none')
    have isKept : kept = complete := by simp only [kept, outliving, begins, Bool.false_eq_true, ↓reduceIte]
    obtain ⟨records, _⟩ := target.behind some'
    rw [isKept]
    refine ⟨fun j inside _ => contents.stored j inside, ?_⟩
    rw [contents.stored k target.inside, records]

section Settled
variable {record : Record} {k : Nat} {front : List Record} {flash : FlashDriver} {part : List UInt8}

private theorem holding_settled {config : Config} (isPrefix : part <+: record.frame)
    (room : (frameBytes front).length + record.size ≤ 4096)
    (holding : Holding flash config (Function.update (fun j => (sectors j).bytes) k (frameBytes front ++ part))) :
    Holding flash config fun j => (Function.update sectors k (settled flash (config.base k) front record part) j).bytes := by
  intro j inside
  have held := holding j inside
  by_cases same : j = k
  · subst same
    rw [Function.update_self] at held
    simp only [Function.update_self]
    exact settled_holds held room isPrefix
  · rw [Function.update_of_ne same] at held
    simp only [Function.update_of_ne same]
    exact held

/-- The frames that outlive an append, and the one it programmed whole, sector by sector. -/
private theorem stored_settled (contents : Contents s complete sectors) (target : Target s sectors record k front)
    {j : Nat} (inside : j < s.config.sectors) :
    (outliving (isSectorStart (s.appendAddress record.size)) (s.appendAddress record.size) complete ++
        if flash.cellsFrom (s.appendAddress record.size) record.size = record.frame then
          [(s.appendAddress record.size, record)] else []).filter
        (fun place => InSector (s.config.base j) place) =
      placed (s.config.base j) (Function.update sectors k (settled flash (s.config.base k) front record part) j).records := by
  have room := target.room
  have positive := record.size_pos
  obtain ⟨elsewhere, here⟩ := outliving_stored contents target
  rw [target.place] at elsewhere here ⊢
  rw [List.filter_append]
  by_cases same : j = k
  · subst same
    have inSector : InSector (s.config.base j) (s.config.base j + (frameBytes front).length, record) := by
      simp only [InSector]
      omega
    rw [here, Function.update_self, settled]
    split
    · rw [List.filter_singleton, decide_eq_true inSector, Sector.whole, placed_append]
      rfl
    · rw [List.filter_nil, List.append_nil]
  · have outside : ¬ InSector (s.config.base j) (s.config.base k + (frameBytes front).length, record) := by
      have apart := s.config.base_apart same
      simp only [InSector]
      omega
    rw [elsewhere j inside same, Function.update_of_ne same]
    split
    · rw [List.filter_singleton, decide_eq_false outside]
      exact List.append_nil _
    · rw [List.filter_nil, List.append_nil]

end Settled

theorem stores_contents (contents : Contents s complete sectors) {record : Record} {k : Nat} {front : List Record}
    (target : Target s sectors record k front) {t : FlashLogStorage} (sameConfig : t.config = s.config) {part : List UInt8}
    (isPrefix : part <+: record.frame)
    (holding : Holding t.flash s.config (Function.update (fun j => (sectors j).bytes) k (frameBytes front ++ part))) :
    Contents t
      (outliving (isSectorStart (s.appendAddress record.size)) (s.appendAddress record.size) complete ++
        if t.flash.cellsFrom (s.appendAddress record.size) record.size = record.frame then
          [(s.appendAddress record.size, record)] else [])
      (Function.update sectors k (settled t.flash (s.config.base k) front record part)) := by
  have room := target.room
  have positive := record.size_pos
  constructor
  · rw [sameConfig]
    exact contents.config
  · rw [sameConfig]
    exact holding_settled isPrefix room holding
  · rw [sameConfig]
    intro j inside
    by_cases same : j = k
    · subst same
      rw [Function.update_self]
      exact settled_torn isPrefix
    · rw [Function.update_of_ne same]
      exact contents.torn j inside
  · rw [sameConfig]
    exact fun j inside => stored_settled contents target inside
  · rw [sameConfig]
    intro place member
    rcases List.mem_append.mp member with old | new
    · exact contents.area place ((outliving_sublist _ _ _).subset old)
    · split at new
      · rw [List.mem_singleton.mp new, target.place]
        refine ⟨k, target.inside, ?_⟩
        simp only [InSector]
        omega
      · cases new

end Advance

end PicoWLogger
