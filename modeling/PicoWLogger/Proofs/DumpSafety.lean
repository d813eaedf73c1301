import PicoWLogger.Proofs.ReadBounds
import PicoWLogger.Proofs.RingIndex
import Mathlib.Data.Int.ModEq

/-! The dumps on any flash. The loop is followed once more with the address of each frame it sends. As many
bytes as were scanned lie between the first address and the current one, round the area, so no address
comes up twice before the counter ends the loop. -/

namespace PicoWLogger

namespace FlashLogStorage
variable {s : FlashLogStorage}

/-- `sendLoop` with the address of each frame that is sent. -/
def sendLoopAt (s : FlashLogStorage) (skipCount addr scanned validSeen : Nat) : Bool × List (Nat × List UInt8) :=
  if scanned < s.config.endAddr - s.config.startAddr then
    match s.isValidFrameAt addr with
    | some (header, _) =>
      match _sent : s.readFrame addr LOG_FRAME_MAX_SIZE with
      | none => (false, [])
      | some frame =>
        let here := if validSeen ≥ skipCount then [(addr, frame)] else []
        if header.seq = s.newestSeq then (true, here)
        else
          let later := sendLoopAt s skipCount (s.wrapAddress (u32 (addr + frame.length))) (scanned + frame.length)
            (validSeen + 1)
          (later.1, here ++ later.2)
    | none => sendLoopAt s skipCount (s.wrapAddress (u32 (addr + 1))) (scanned + 1) validSeen
  else (true, [])
termination_by s.config.endAddr - s.config.startAddr - scanned
decreasing_by
  · have := readFrame_length _sent
    omega
  · omega

def sendFramesOldestFirstAt (s : FlashLogStorage) : Bool × List (Nat × List UInt8) :=
  if !s.initialized then (false, [])
  else if !s.lock then (false, [])
  else if s.validFrameCount = 0 then (true, [])
  else s.sendLoopAt 0 s.oldestAddr 0 0

def sendLatestFramesAt (s : FlashLogStorage) (count : Nat) : Bool × List (Nat × List UInt8) :=
  if !s.initialized then (false, [])
  else if !s.lock then (false, [])
  else if count = 0 then (true, [])
  else if s.validFrameCount = 0 then (true, [])
  else
    let targetCount := if count > s.validFrameCount then s.validFrameCount else count
    s.sendLoopAt (s.validFrameCount - targetCount) s.oldestAddr 0 0

def frames (dump : Bool × List (Nat × List UInt8)) : Bool × List (List UInt8) := (dump.1, dump.2.map Prod.snd)

theorem sendLoopAt_frame {skip addr scanned seen size : Nat} {header : LogFrameHeader} {frame : List UInt8}
    (left : scanned < s.config.endAddr - s.config.startAddr) (valid : s.isValidFrameAt addr = some (header, size))
    (read : s.readFrame addr LOG_FRAME_MAX_SIZE = some frame) :
    s.sendLoopAt skip addr scanned seen =
      if header.seq = s.newestSeq then (true, if seen ≥ skip then [(addr, frame)] else [])
      else
        let later := s.sendLoopAt skip (s.wrapAddress (u32 (addr + frame.length))) (scanned + frame.length) (seen + 1)
        (later.1, (if seen ≥ skip then [(addr, frame)] else []) ++ later.2) := by
  rw [sendLoopAt, if_pos left]
  split
  next found =>
    rw [valid] at found
    cases found
    split
    next unread => rw [read] at unread; cases unread
    next readBack =>
      rw [read] at readBack
      cases readBack
      rfl
  next missing => rw [valid] at missing; cases missing

theorem sendLoopAt_unread {skip addr scanned seen size : Nat} {header : LogFrameHeader}
    (left : scanned < s.config.endAddr - s.config.startAddr) (valid : s.isValidFrameAt addr = some (header, size))
    (unread : s.readFrame addr LOG_FRAME_MAX_SIZE = none) : s.sendLoopAt skip addr scanned seen = (false, []) := by
  rw [sendLoopAt, if_pos left]
  split
  next found =>
    split
    next => rfl
    next readBack => rw [unread] at readBack; cases readBack
  next missing => rw [valid] at missing; cases missing

theorem sendLoopAt_pass {skip addr scanned seen : Nat} (left : scanned < s.config.endAddr - s.config.startAddr)
    (missing : s.isValidFrameAt addr = none) :
    s.sendLoopAt skip addr scanned seen = s.sendLoopAt skip (s.wrapAddress (u32 (addr + 1))) (scanned + 1) seen := by
  conv_lhs => rw [sendLoopAt, if_pos left]
  split
  next found => rw [missing] at found; cases found
  next => rfl

theorem frames_sendLoopAt (skip addr scanned seen : Nat) :
    frames (s.sendLoopAt skip addr scanned seen) = s.sendLoop skip addr scanned seen := by
  have one {chosen : Prop} [Decidable chosen] {addr : Nat} {frame : List UInt8} :
      (if chosen then [(addr, frame)] else []).map Prod.snd = if chosen then [frame] else [] := by
    split <;> rfl
  fun_induction s.sendLoop skip addr scanned seen with
  | case1 addr scanned seen left header size valid unread =>
    rw [sendLoopAt_unread left valid unread]
    rfl
  | case2 addr scanned seen left header size valid frame read shown last =>
    rw [sendLoopAt_frame left valid read, if_pos last, frames, one]
    rfl
  | case3 addr scanned seen left header size valid frame read shown notLast later ih =>
    rw [sendLoopAt_frame left valid read, if_neg notLast, frames, List.map_append, one]
    rw [frames] at ih
    simp only [later, ← ih, shown]
    rfl
  | case4 addr scanned seen left missing ih => rw [sendLoopAt_pass left missing, ih]
  | case5 addr scanned seen done =>
    rw [sendLoopAt, if_neg done]
    rfl

theorem frames_sendFramesOldestFirstAt : frames s.sendFramesOldestFirstAt = s.sendFramesOldestFirst := by
  rw [sendFramesOldestFirstAt, sendFramesOldestFirst, ← frames_sendLoopAt]
  repeat' split
  all_goals rfl

theorem frames_sendLatestFramesAt (count : Nat) : frames (s.sendLatestFramesAt count) = s.sendLatestFrames count := by
  simp only [sendLatestFramesAt, sendLatestFrames, ← frames_sendLoopAt]
  repeat' split
  all_goals rfl

/-- The address that lies `scanned` bytes behind `first`, round the area. -/
def ringAddress (s : FlashLogStorage) (first scanned : Nat) : Nat :=
  s.config.startAddr + (first - s.config.startAddr + scanned) % (s.config.endAddr - s.config.startAddr)

theorem wrapAddress_ringAddress (config : isConfigValid s.config = true) {first scanned width : Nat}
    (inside : s.ringAddress first scanned + width ≤ s.config.endAddr) :
    s.wrapAddress (u32 (s.ringAddress first scanned + width)) = s.ringAddress first (scanned + width) := by
  obtain ⟨ordered, _, flashEnd, _⟩ := (isConfigValid_iff _).mp config
  simp only [FLASH_SIZE] at flashEnd
  obtain ⟨area, isArea⟩ : ∃ area, s.config.endAddr - s.config.startAddr = area := ⟨_, rfl⟩
  obtain ⟨offset, isOffset⟩ : ∃ offset, first - s.config.startAddr + scanned = offset := ⟨_, rfl⟩
  have positive : 0 < area := by omega
  have next : first - s.config.startAddr + (scanned + width) = offset + width := by omega
  simp only [ringAddress, isArea, isOffset, next] at inside ⊢
  have moved : (offset + width) % area = (offset % area + width) % area := (Nat.mod_add_mod offset area width).symm
  rw [u32, Nat.mod_eq_of_lt (by omega), wrapAddress, moved]
  split
  next atEnd =>
    have whole : offset % area + width = area := by omega
    rw [whole, Nat.mod_self, Nat.add_zero]
  next before =>
    rw [Nat.mod_eq_of_lt (by omega : offset % area + width < area), Nat.add_assoc]

theorem ringAddress_inside (config : isConfigValid s.config = true) (first scanned : Nat) :
    s.config.startAddr ≤ s.ringAddress first scanned ∧ s.ringAddress first scanned < s.config.endAddr := by
  have ordered := ((isConfigValid_iff _).mp config).1
  have below := Nat.mod_lt (first - s.config.startAddr + scanned) (Nat.sub_pos_of_lt ordered)
  rw [ringAddress]
  omega

theorem ringAddress_injective {first scanned other : Nat} (less : scanned < other)
    (turn : other < s.config.endAddr - s.config.startAddr) : s.ringAddress first scanned ≠ s.ringAddress first other := by
  intro same
  rw [ringAddress, ringAddress] at same
  have congruent : scanned ≡ other [MOD s.config.endAddr - s.config.startAddr] :=
    Nat.ModEq.add_left_cancel' _ (Nat.add_left_cancel same)
  have equal := congruent.eq_of_lt_of_lt (less.trans turn) turn
  omega

/-- What a dump sends is the frame check's frame at its address. -/
def SentFrame (s : FlashLogStorage) (sent : Nat × List UInt8) : Prop :=
  ∃ header size, s.isValidFrameAt sent.1 = some (header, size) ∧ sent.2 = s.flash.cellsFrom sent.1 size ∧
    s.config.startAddr ≤ sent.1 ∧ sent.1 + size ≤ s.config.endAddr

theorem sentFrame_of_read {addr : Nat} {frame : List UInt8} (read : s.readFrame addr LOG_FRAME_MAX_SIZE = some frame) :
    SentFrame s (addr, frame) ∧ addr + frame.length ≤ s.config.endAddr ∧ 0 < frame.length := by
  obtain ⟨_, above, inside, cells, header, valid⟩ := readFrame_inside read
  exact ⟨⟨header, frame.length, valid, cells, above, inside⟩, inside, readFrame_length read⟩

/-- From `scanned` on the loop sends frames at later and later places of the turn. -/
theorem sendLoopAt_safe (config : isConfigValid s.config = true) {first skip addr scanned seen : Nat}
    (here : addr = s.ringAddress first scanned) :
    ((s.sendLoopAt skip addr scanned seen).2.map Prod.fst).Nodup ∧
      ∀ sent ∈ (s.sendLoopAt skip addr scanned seen).2, SentFrame s sent ∧
        ∃ place, scanned ≤ place ∧ place < s.config.endAddr - s.config.startAddr ∧ sent.1 = s.ringAddress first place := by
  fun_induction s.sendLoopAt skip addr scanned seen with
  | case1 => exact ⟨List.nodup_nil, List.forall_mem_nil _⟩
  | case2 addr scanned seen left header size valid frame read shown last =>
    obtain ⟨isSent, _, _⟩ := sentFrame_of_read read
    simp only [shown]
    split
    · refine ⟨List.nodup_singleton _, List.forall_mem_singleton.mpr ⟨isSent, scanned, Nat.le_refl _, left, here⟩⟩
    · exact ⟨List.nodup_nil, List.forall_mem_nil _⟩
  | case3 addr scanned seen left header size valid frame read shown notLast later ih =>
    obtain ⟨isSent, inside, positive⟩ := sentFrame_of_read read
    rw [here] at inside
    obtain ⟨distinct, behind⟩ := ih (by rw [here, wrapAddress_ringAddress config inside])
    have rest : ∀ sent ∈ later.2, SentFrame s sent ∧ ∃ place, scanned < place ∧
        place < s.config.endAddr - s.config.startAddr ∧ sent.1 = s.ringAddress first place := by
      intro sent member
      obtain ⟨whole, place, after, turn, isPlace⟩ := behind sent member
      exact ⟨whole, place, by omega, turn, isPlace⟩
    have weaker : ∀ sent ∈ later.2, SentFrame s sent ∧ ∃ place, scanned ≤ place ∧
        place < s.config.endAddr - s.config.startAddr ∧ sent.1 = s.ringAddress first place := by
      intro sent member
      obtain ⟨whole, place, after, turn, isPlace⟩ := rest sent member
      exact ⟨whole, place, Nat.le_of_lt after, turn, isPlace⟩
    simp only [shown]
    split
    · refine ⟨?_, List.forall_mem_cons.mpr ⟨⟨isSent, scanned, Nat.le_refl _, left, here⟩, weaker⟩⟩
      refine List.nodup_cons.mpr ⟨fun again => ?_, distinct⟩
      obtain ⟨sent, member, same⟩ := List.mem_map.mp again
      obtain ⟨_, place, after, turn, isPlace⟩ := rest sent member
      exact ringAddress_injective after turn (here.symm.trans (same.symm.trans isPlace))
    · exact ⟨distinct, weaker⟩
  | case4 addr scanned seen left missing ih =>
    obtain ⟨_, below⟩ := ringAddress_inside config first scanned
    obtain ⟨distinct, behind⟩ := ih (by rw [here, wrapAddress_ringAddress config (by omega)])
    refine ⟨distinct, fun sent member => ?_⟩
    obtain ⟨whole, place, after, turn, isPlace⟩ := behind sent member
    exact ⟨whole, place, by omega, turn, isPlace⟩
  | case5 => exact ⟨List.nodup_nil, List.forall_mem_nil _⟩

structure SafeDump (s : FlashLogStorage) (dump : Bool × List (Nat × List UInt8)) : Prop where
  once : (dump.2.map Prod.fst).Nodup
  sent : ∀ sent ∈ dump.2, SentFrame s sent

theorem SafeDump.nothing (ok : Bool) : SafeDump s (ok, []) := ⟨List.nodup_nil, List.forall_mem_nil _⟩

theorem SafeDump.from_oldest (config : isConfigValid s.config = true) (above : s.config.startAddr ≤ s.oldestAddr)
    (below : s.oldestAddr < s.config.endAddr) (skip : Nat) : SafeDump s (s.sendLoopAt skip s.oldestAddr 0 0) := by
  have here : s.oldestAddr = s.ringAddress s.oldestAddr 0 := by
    rw [ringAddress, Nat.add_zero, Nat.mod_eq_of_lt (by omega)]
    omega
  obtain ⟨once, sent⟩ : _ ∧ ∀ sent ∈ (s.sendLoopAt skip s.oldestAddr 0 0).2, _ := sendLoopAt_safe config here
  exact ⟨once, fun frame member => (sent frame member).1⟩

end FlashLogStorage

/-- Whatever the flash holds and whatever else the index says, both dumps end after one turn of the area at most, send
frames that pass the check and lie in the area, and never one address twice. -/
theorem dumps_safe {s : FlashLogStorage} (config : FlashLogStorage.isConfigValid s.config = true)
    (above : s.config.startAddr ≤ s.oldestAddr) (below : s.oldestAddr < s.config.endAddr) :
    (FlashLogStorage.frames s.sendFramesOldestFirstAt = s.sendFramesOldestFirst ∧ s.SafeDump s.sendFramesOldestFirstAt) ∧
      ∀ count, FlashLogStorage.frames (s.sendLatestFramesAt count) = s.sendLatestFrames count ∧
        s.SafeDump (s.sendLatestFramesAt count) := by
  have started := FlashLogStorage.SafeDump.from_oldest config above below
  refine ⟨⟨FlashLogStorage.frames_sendFramesOldestFirstAt, ?_⟩, fun count =>
    ⟨FlashLogStorage.frames_sendLatestFramesAt count, ?_⟩⟩
  · rw [FlashLogStorage.sendFramesOldestFirstAt]
    repeat' split
    all_goals first | exact .nothing _ | exact started _
  · rw [FlashLogStorage.sendLatestFramesAt]
    repeat' split
    all_goals first | exact .nothing _ | exact started _

/-- An index that does not match the flash. -/
theorem dumps_safe_strayed :
    let strayed : FlashLogStorage :=
      { holding ⟨0, 4096⟩ (sampleRecord 7 5 (by decide)).frame with
        initialized := true, mutexCreated := true, oldestAddr := 100, newestSeq := 3, validFrameCount := 9 }
    FlashLogStorage.frames strayed.sendFramesOldestFirstAt = strayed.sendFramesOldestFirst ∧
      strayed.SafeDump strayed.sendFramesOldestFirstAt := by
  intro strayed
  exact (dumps_safe (s := strayed) (by decide) (by decide) (by decide)).1

end PicoWLogger
