import PicoWLogger.LoggerViewer
import Mathlib.Data.List.Chain
import Mathlib.Data.List.Perm.Basic

/-! The viewer's sequence statistics against the firmware's counter. The counter is one of
32 bits and the expected number is not, so the statistics are right until the counter wraps. -/

namespace PicoWLogger.LoggerViewer

/-- The events received, by the unbounded count of the events made before them: in order, and
with fewer than 2^31 missing between two of them. -/
def Deliveries (received : List Nat) : Prop := received.IsChain fun n m => n < m ∧ m ≤ n + 2 ^ 31

def missing (received : List Nat) : Nat :=
  match received.head?, received.getLast? with
  | some first, some last => ((List.range' first (last + 1 - first)).filter fun n => n ∉ received).length
  | _, _ => 0

section Gaps

theorem Deliveries.ascending {received : List Nat} (deliveries : Deliveries received) : received.Pairwise (· < ·) :=
  List.isChain_iff_pairwise.mp (deliveries.imp fun _ _ both => both.1)

theorem last_of_cons (first : Nat) (rest : List Nat) : (first :: rest).getLast? = some (rest.getLastD first) := by
  rw [List.getLast?_cons, List.getLastD_eq_getLast?]

/-- The numbers between the first and the last split into those received and those missing. -/
theorem missing_cons {first : Nat} {rest : List Nat} (deliveries : Deliveries (first :: rest)) :
    missing (first :: rest) + rest.length = rest.getLastD first - first := by
  have ascending := deliveries.ascending
  have last := last_of_cons first rest
  have low : ∀ n ∈ first :: rest, first ≤ n := by
    intro n member
    rcases List.mem_cons.mp member with rfl | later
    · exact Nat.le_refl _
    · exact Nat.le_of_lt ((List.pairwise_cons.mp ascending).1 n later)
  have high : ∀ n ∈ first :: rest, n ≤ rest.getLastD first := by
    intro n member
    obtain ⟨front, shape⟩ := List.getLast?_eq_some_iff.mp last
    rw [shape] at ascending member
    rcases List.mem_append.mp member with earlier | same
    · exact Nat.le_of_lt ((List.pairwise_append.mp ascending).2.2 n earlier _ List.mem_cons_self)
    · exact Nat.le_of_eq (List.mem_singleton.mp same)
  have bound := high first List.mem_cons_self
  have received : ((List.range' first (rest.getLastD first + 1 - first)).filter fun n => n ∈ first :: rest).Perm
      (first :: rest) := by
    refine (List.perm_ext_iff_of_nodup (List.Nodup.filter _ List.nodup_range') (ascending.imp fun less => Nat.ne_of_lt less)).mpr ?_
    intro n
    rw [List.mem_filter, List.mem_range'_1, decide_eq_true_eq]
    refine ⟨fun both => both.2, fun member => ⟨?_, member⟩⟩
    have := low n member
    have := high n member
    omega
  have parts := (List.filter_append_perm (fun n => decide (n ∈ first :: rest))
    (List.range' first (rest.getLastD first + 1 - first))).length_eq
  have gone : missing (first :: rest) = ((List.range' first (rest.getLastD first + 1 - first)).filter
      fun n => !decide (n ∈ first :: rest)).length := by
    rw [missing, last]
    simp
  rw [List.length_append, received.length_eq, List.length_range', ← gone, List.length_cons] at parts
  omega

end Gaps

section Counting
variable {stats : Stats} {frame : LogFrame}

structure Counted (stats : Stats) (gap : Nat) : Prop where
  gap : stats.seqGap = gap
  late : stats.seqLate = 0
  dup : stats.seqDup = 0

theorem countFrame_first (correct : frame.crcOk = true) (unset : stats.expectedSeq = none) :
    countFrame stats frame = { stats with ok := stats.ok + 1, expectedSeq := some (frame.seq + 1) } := by
  rw [countFrame, if_pos correct, updateSeqStats]
  simp only [unset]

theorem countFrame_ahead {expected : Nat} (correct : frame.crcOk = true) (set : stats.expectedSeq = some expected)
    (ahead : expected ≤ frame.seq) :
    countFrame stats frame =
      { stats with
        ok := stats.ok + 1
        seqGap := stats.seqGap + (frame.seq - expected)
        expectedSeq := some (frame.seq + 1) } := by
  rw [countFrame, if_pos correct, updateSeqStats]
  simp only [set]
  by_cases same : frame.seq = expected
  · rw [if_pos same, same, Nat.sub_self]
    rfl
  · rw [if_neg same, if_pos (by omega)]

theorem countFrame_behind {expected : Nat} (correct : frame.crcOk = true) (set : stats.expectedSeq = some expected)
    (behind : frame.seq + 1 < expected) :
    countFrame stats frame = { stats with ok := stats.ok + 1, seqLate := stats.seqLate + 1 } := by
  rw [countFrame, if_pos correct, updateSeqStats]
  simp only [set]
  rw [if_neg (by omega), if_neg (by omega), if_neg (by omega)]

theorem countFrame_late (stats : Stats) (frame : LogFrame) : stats.seqLate ≤ (countFrame stats frame).seqLate := by
  simp only [countFrame, updateSeqStats]
  repeat' split
  all_goals simp

theorem foldl_late (stats : Stats) (frames : List LogFrame) :
    stats.seqLate ≤ (frames.foldl countFrame stats).seqLate := by
  induction frames generalizing stats with
  | nil => exact Nat.le_refl _
  | cons frame rest ih => exact (countFrame_late stats frame).trans (ih _)

end Counting

section Runs
variable {frames : List LogFrame} {rest : List Nat} {n gap : Nat} {stats : Stats}

/-- As long as the counter has not wrapped, the gaps add up to the events left out. -/
theorem counted_unwrapped (correct : ∀ frame ∈ frames, frame.crcOk = true)
    (numbered : frames.map LogFrame.seq = rest.map (· % 2 ^ 32)) (deliveries : Deliveries (n :: rest))
    (counted : Counted stats gap) (set : stats.expectedSeq = some (n % 2 ^ 32 + 1))
    (same : rest.getLastD n / 2 ^ 32 = n / 2 ^ 32) :
    Counted (frames.foldl countFrame stats) (gap + missing (n :: rest)) := by
  induction rest generalizing n gap stats frames with
  | nil =>
    have none' : frames = [] := List.map_eq_nil_iff.mp numbered
    have nothing := missing_cons deliveries
    rw [List.length_nil, List.getLastD_nil, Nat.sub_self] at nothing
    rw [none', List.foldl_nil, Nat.eq_zero_of_add_eq_zero_right nothing]
    exact counted
  | cons m rest ih =>
    obtain ⟨frame, others, rfl, first, later⟩ := List.map_eq_cons_iff.mp numbered
    have seq : frame.seq = m % 2 ^ 32 := first
    obtain ⟨⟨less, few⟩, chain⟩ := List.isChain_cons_cons.mp deliveries
    have ends : (m :: rest).getLastD n = rest.getLastD m := List.getLastD_cons
    have before := missing_cons deliveries
    have after := missing_cons chain
    rw [ends] at same before
    have beyond : m ≤ rest.getLastD m := by
      have := missing_cons chain
      by_cases at' : rest = []
      · rw [at']; exact Nat.le_refl _
      · have := List.length_pos_iff.mpr at'
        omega
    have ahead : n % 2 ^ 32 + 1 ≤ frame.seq := by omega
    rw [List.foldl_cons, countFrame_ahead (correct frame List.mem_cons_self) set ahead]
    have total : gap + missing (n :: m :: rest) = gap + (frame.seq - (n % 2 ^ 32 + 1)) + missing (m :: rest) := by
      rw [List.length_cons] at before
      omega
    rw [total]
    refine ih (fun other member => correct other (List.mem_cons_of_mem _ member)) later chain
      ⟨by rw [counted.gap], counted.late, counted.dup⟩ (by rw [seq]) ?_
    omega

theorem late_wrapped (correct : ∀ frame ∈ frames, frame.crcOk = true)
    (numbered : frames.map LogFrame.seq = rest.map (· % 2 ^ 32)) (deliveries : Deliveries (n :: rest))
    (set : stats.expectedSeq = some (n % 2 ^ 32 + 1)) (wraps : rest.getLastD n / 2 ^ 32 ≠ n / 2 ^ 32) :
    0 < (frames.foldl countFrame stats).seqLate := by
  induction rest generalizing n stats frames with
  | nil => exact absurd rfl wraps
  | cons m rest ih =>
    obtain ⟨frame, others, rfl, first, later⟩ := List.map_eq_cons_iff.mp numbered
    have seq : frame.seq = m % 2 ^ 32 := first
    obtain ⟨⟨less, few⟩, chain⟩ := List.isChain_cons_cons.mp deliveries
    have ends : (m :: rest).getLastD n = rest.getLastD m := List.getLastD_cons
    rw [ends] at wraps
    rw [List.foldl_cons]
    by_cases lap : m / 2 ^ 32 = n / 2 ^ 32
    · rw [countFrame_ahead (correct frame List.mem_cons_self) set (by omega)]
      exact ih (fun other member => correct other (List.mem_cons_of_mem _ member)) later chain (by rw [seq])
        (by rwa [lap])
    · rw [countFrame_behind (correct frame List.mem_cons_self) set (by omega)]
      have kept := foldl_late { stats with ok := stats.ok + 1, seqLate := stats.seqLate + 1 } others
      exact Nat.lt_of_lt_of_le (Nat.succ_pos _) kept

end Runs

/-- The statistics of a stream of correct frames are exact, whichever events are missing
from it, if and only if the counter does not wrap between the first and the last one received. -/
theorem seq_stats_iff (frames : List LogFrame) (correct : ∀ frame ∈ frames, frame.crcOk = true) (received : List Nat)
    (deliveries : Deliveries received) (numbered : frames.map LogFrame.seq = received.map (· % 2 ^ 32)) :
    let stats := frames.foldl countFrame {}
    stats.seqGap = missing received ∧ stats.seqLate = 0 ∧ stats.seqDup = 0 ↔
      ∀ first ∈ received.head?, ∀ last ∈ received.getLast?, last / 2 ^ 32 = first / 2 ^ 32 := by
  intro stats
  cases received with
  | nil =>
    have none' : frames = [] := List.map_eq_nil_iff.mp numbered
    simp [stats, none', missing]
  | cons n rest =>
    obtain ⟨frame, others, rfl, first, later⟩ := List.map_eq_cons_iff.mp numbered
    have seq : frame.seq = n % 2 ^ 32 := first
    obtain ⟨begun, isBegun⟩ : ∃ begun, countFrame {} frame = begun := ⟨_, rfl⟩
    have started : stats = others.foldl countFrame begun := by rw [← isBegun]; rfl
    rw [countFrame_first (correct frame List.mem_cons_self) rfl, seq] at isBegun
    have set : begun.expectedSeq = some (n % 2 ^ 32 + 1) := by rw [← isBegun]
    have zero : Counted begun 0 := by rw [← isBegun]; exact ⟨rfl, rfl, rfl⟩
    have others' : ∀ other ∈ others, other.crcOk = true := fun other member => correct other (List.mem_cons_of_mem _ member)
    have condition : (∀ first ∈ (n :: rest).head?, ∀ last ∈ (n :: rest).getLast?, last / 2 ^ 32 = first / 2 ^ 32) ↔
        rest.getLastD n / 2 ^ 32 = n / 2 ^ 32 := by
      rw [last_of_cons, List.head?_cons]
      simp
    rw [condition]
    constructor
    · rintro ⟨_, late, _⟩
      by_contra wraps
      have counted := late_wrapped others' later deliveries set wraps
      rw [← started, late] at counted
      exact Nat.lt_irrefl 0 counted
    · intro same
      have counted := counted_unwrapped others' later deliveries zero set same
      rw [← started, Nat.zero_add] at counted
      exact ⟨counted.gap, counted.late, counted.dup⟩

def numberedFrame (seq : Nat) : LogFrame := ⟨seq, 200, 0, 0, 0, [], 0, 0⟩

theorem seq_stats_gap :
    let stats := [numberedFrame 5, numberedFrame 8].foldl countFrame {}
    stats.seqGap = 2 ∧ stats.seqLate = 0 ∧ stats.seqDup = 0 :=
  (seq_stats_iff [numberedFrame 5, numberedFrame 8] (by decide) [5, 8]
    (List.isChain_cons_cons.mpr ⟨by decide, List.isChain_singleton _⟩) rfl).mpr (by decide)

/-- The frame behind the wrap continues the counter and is counted as late. -/
theorem seq_stats_wrap :
    let received := [4294967295, 4294967296]
    let frames := [numberedFrame 4294967295, numberedFrame 0]
    Deliveries received ∧ frames.map LogFrame.seq = received.map (· % 2 ^ 32) ∧
      (∀ frame ∈ frames, frame.crcOk = true) ∧ missing received = 0 ∧ (frames.foldl countFrame {}).seqLate = 1 :=
  ⟨List.isChain_cons_cons.mpr ⟨by decide, List.isChain_singleton _⟩, rfl, by decide, by decide, by decide⟩

end PicoWLogger.LoggerViewer
