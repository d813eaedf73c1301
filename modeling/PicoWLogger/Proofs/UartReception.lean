import PicoWLogger.UartReception
import PicoWLogger.Proofs.BufferSizes
import PicoWLogger.Lib.SlidingWindow

/-! What the reader of the receive ring gets, and when it is told that there is nothing. -/

namespace PicoWLogger

theorem alignedAllocForDma_mod {storable : UInt32 → Bool} {raw alignment base : UInt32} {k : Nat}
    (power : alignment.toNat = 2 ^ k) (allocated : alignedAllocForDma storable raw alignment = some base) :
    base.toNat % 2 ^ k = 0 := by
  rw [alignedAllocForDma] at allocated
  split at allocated
  · cases allocated
    exact Nat.zero_mod _
  · dsimp only at allocated
    split at allocated
    · cases allocated
      exact RingBuffer.and_not_mask_mod power _
    · cases allocated

/-- In a ring of `2 ^ k` bytes from an aligned address on, the write address goes around. -/
theorem RxChannel.nextAddr_eq {channel : RxChannel} {base : UInt32} {k n : Nat} (least : 1 ≤ k) (most : k ≤ 15)
    (config : channel.config = { readIncrement := false, writeIncrement := true, ringBits := UInt32.ofNat k })
    (aligned : base.toNat % 2 ^ k = 0) (place : channel.writeAddr = base + UInt32.ofNat (n % 2 ^ k)) :
    channel.nextAddr = base + UInt32.ofNat ((n + 1) % 2 ^ k) := by
  have table : ∀ k ≤ 15, ((1 : UInt32) <<< UInt32.ofNat k).toNat = 2 ^ k := by decide +kernel
  have power := table k most
  have bits : UInt32.ofNat k ≠ 0 := by
    intro zero
    have := congrArg UInt32.toNat zero
    rw [UInt32.toNat_ofNat_of_lt' (by change k < 4294967296; omega)] at this
    exact Nat.ne_of_gt least this
  have whole : 2 ^ k ∣ 4294967296 := pow_dvd_pow 2 (Nat.le_trans most (by decide : 15 ≤ 32))
  have masked (x : UInt32) (m : Nat) (same : x.toNat % 2 ^ k = m % 2 ^ k) :
      x &&& ((1 : UInt32) <<< UInt32.ofNat k) - 1 = UInt32.ofNat (m % 2 ^ k) := by
    rw [← UInt32.ofNat_toNat (x := x &&& _), RingBuffer.and_mask_toNat power, same]
  have here : (base + UInt32.ofNat (n % 2 ^ k)).toNat % 2 ^ k = n % 2 ^ k := by
    rw [UInt32.toNat_add, UInt32.toNat_ofNat', Nat.mod_mod_of_dvd _ whole, Nat.add_mod, aligned, Nat.zero_add,
      Nat.mod_mod, Nat.mod_mod_of_dvd _ whole, Nat.mod_mod]
  have next : (base + UInt32.ofNat (n % 2 ^ k) + 1).toNat % 2 ^ k = (n + 1) % 2 ^ k := by
    rw [UInt32.toNat_add, Nat.mod_mod_of_dvd _ whole, Nat.add_mod, here, ← Nat.add_mod]
    rfl
  rw [nextAddr, config, if_pos rfl, if_neg bits, place]
  dsimp only
  rw [masked _ n here, masked _ (n + 1) next, UInt32.add_sub_cancel]

theorem UartRx.takeByte_rx (rx : UartRx) :
    rx.takeByte.2 = { rx with rxReadPos := rx.nextReadPos, dropFirstRxByte := false } := by
  rw [takeByte]
  cases rx with
  | mk rxBuf rxSize rxReadPos dropFirstRxByte channel memory =>
    cases dropFirstRxByte with
    | false => rfl
    | true =>
      dsimp only
      rw [if_pos rfl]
      split <;> rfl

theorem UartRx.takeByte_result (rx : UartRx) :
    rx.takeByte.1 =
      if rx.dropFirstRxByte = true ∧ (rx.current = 0x00 ∨ rx.current = 0xFF) then -1 else Int32.ofNat rx.current.toNat := by
  rw [takeByte]
  by_cases first : rx.dropFirstRxByte = true
  · dsimp only
    rw [if_pos first]
    by_cases garbage : rx.current = 0x00 ∨ rx.current = 0xFF
    · rw [if_pos garbage, if_pos ⟨first, garbage⟩]
    · rw [if_neg garbage, if_neg fun both => garbage both.2]
  · dsimp only
    rw [if_neg first, if_neg fun both => first both.1]

namespace Reception

/-- The bytes that the channel wrote are in the ring, the reader not a whole ring behind them. -/
structure Ring (s : Reception) (k : Nat) : Prop where
  sized : s.rx.Sized k
  aligned : s.rx.rxBuf.toNat % 2 ^ k = 0
  config : s.rx.channel.config = { readIncrement := false, writeIncrement := true, ringBits := UInt32.ofNat k }
  write : s.rx.channel.writeAddr = s.rx.rxBuf + UInt32.ofNat (s.moved.length % 2 ^ k)
  read : s.rx.rxReadPos = Int16.ofNat (s.taken % 2 ^ k)
  slots : SlidingWindow.Holds (fun i => s.rx.memory (s.rx.rxBuf + UInt32.ofNat i)) (2 ^ k) s.moved
  behind : s.taken ≤ s.moved.length
  ahead : s.moved.length < s.taken + 2 ^ k
  stopped : s.fifo = [] ∨ s.rx.channel.transCount = 0
  drop : s.rx.dropFirstRxByte = decide (s.taken = 0)

namespace Ring
variable {s : Reception} {k : Nat} (ring : s.Ring k)
include ring

theorem place_lt (n : Nat) : n % 2 ^ k < 32768 :=
  Nat.lt_of_lt_of_le (Nat.mod_lt _ (Nat.two_pow_pos k)) ring.sized.le_max

/-- The positions are equal just when every byte written has been taken. -/
theorem empty_iff : s.rx.empty = true ↔ s.taken = s.moved.length := by
  have written : s.rx.pos.toNat = s.moved.length % 2 ^ k := by
    have small := ring.place_lt s.moved.length
    rw [ring.sized.pos_toNat, ring.write, UInt32.add_comm, UInt32.add_sub_cancel,
      UInt32.toNat_ofNat_of_lt' (Nat.lt_trans small (by decide)), Nat.mod_mod]
  rw [UartRx.empty, decide_eq_true_eq, written, ring.read, Int16.toInt_ofNat_of_lt (ring.place_lt _), Int.natCast_inj]
  constructor
  · intro same
    have behind := ring.behind
    have ahead := ring.ahead
    have apart : (s.moved.length - s.taken) % 2 ^ k = 0 := Nat.sub_mod_eq_zero_of_mod_eq same
    rw [Nat.mod_eq_of_lt (by omega)] at apart
    omega
  · intro same
    rw [same]

theorem current_eq (waiting : s.taken < s.moved.length) : s.moved[s.taken]? = some s.rx.current := by
  have ahead := ring.ahead
  have small := ring.place_lt s.taken
  rw [ring.slots s.taken waiting (by omega), UartRx.current, ring.read, UartRx.toInt32_ofNat small, Int32.toUInt32_ofNat']

theorem aside (reader : Reader) (returns : List ReadReturn) : Ring { s with reader, returns } k :=
  ⟨ring.sized, ring.aligned, ring.config, ring.write, ring.read, ring.slots, ring.behind, ring.ahead, ring.stopped,
    ring.drop⟩

theorem fifo_nil (running : s.rx.channel.transCount ≠ 0) : s.fifo = [] := ring.stopped.resolve_right running

theorem transfer (b : UInt8) (running : s.rx.channel.transCount ≠ 0)
    (room : s.moved.length + 1 ≤ s.taken + (s.rx.rxSize.toNat - 1)) :
    Ring { s with rx := s.rx.transfer b, moved := s.moved ++ [b] } k := by
  have behind := ring.behind
  have length : (s.moved ++ [b]).length = s.moved.length + 1 := by rw [List.length_append, List.length_singleton]
  have two := ring.sized.two_le
  rw [ring.sized.power] at room
  refine ⟨⟨ring.sized.power, ring.sized.least, ring.sized.most⟩, ring.aligned, ring.config, ?_, ring.read, ?_, ?_, ?_, .inl (ring.fifo_nil running), ring.drop⟩
  · rw [length]
    exact RxChannel.nextAddr_eq ring.sized.least ring.sized.most ring.config ring.aligned ring.write
  · refine ring.slots.add (Nat.two_pow_pos k) b fun i inside => ?_
    have max := ring.sized.le_max
    change Function.update s.rx.memory s.rx.channel.writeAddr b (s.rx.rxBuf + UInt32.ofNat i) = _
    by_cases here : i = s.moved.length % 2 ^ k
    · rw [ring.write, here, Function.update_self, Function.update_self]
    · have other : s.rx.rxBuf + UInt32.ofNat i ≠ s.rx.rxBuf + UInt32.ofNat (s.moved.length % 2 ^ k) := by
        intro same
        have small := ring.place_lt s.moved.length
        have := congrArg UInt32.toNat ((UInt32.add_right_inj _).mp same)
        rw [UInt32.toNat_ofNat_of_lt' (by change i < 4294967296; omega), UInt32.toNat_ofNat_of_lt' (Nat.lt_trans small (by decide))] at this
        exact here this
      rw [ring.write, Function.update_of_ne other, Function.update_of_ne here]
  · change s.taken ≤ (s.moved ++ [b]).length
    omega
  · change (s.moved ++ [b]).length < s.taken + 2 ^ k
    omega

theorem takeByte (waiting : s.taken < s.moved.length) :
    Ring { s with rx := s.rx.takeByte.2, taken := s.taken + 1 } k := by
  have ahead := ring.ahead
  have after : s.rx.takeByte.2 = { s.rx with rxReadPos := s.rx.nextReadPos, dropFirstRxByte := false } :=
    UartRx.takeByte_rx s.rx
  have next := ring.sized.nextReadPos (ring.place_lt s.taken) ring.read
  rw [after]
  refine ⟨⟨ring.sized.power, ring.sized.least, ring.sized.most⟩, ring.aligned, ring.config, ring.write, ?_, ring.slots,
    waiting, by change s.moved.length < s.taken + 1 + 2 ^ k; omega, ring.stopped, (decide_eq_false (Nat.succ_ne_zero _)).symm⟩
  change s.rx.nextReadPos = _
  rw [next, Nat.mod_add_mod]

end Ring

end Reception

/-- A stream without its first byte if that is 0x00 or 0xFF. -/
def cleaned : List UInt8 → List UInt8
  | [] => []
  | b :: rest => if b = 0x00 ∨ b = 0xFF then rest else b :: rest

theorem cleaned_concat {bytes : List UInt8} (some' : bytes ≠ []) (b : UInt8) : cleaned (bytes ++ [b]) = cleaned bytes ++ [b] := by
  cases bytes with
  | nil => exact absurd rfl some'
  | cons first rest =>
    rw [List.cons_append, cleaned, cleaned]
    split <;> rfl

def ReadResult.data : ReadResult → List UInt8
  | .byte value => if value < 0 then [] else [value.toUInt32.toUInt8]
  | .bytes _ dst => dst

/-- The call returned -1, or fewer than `maxlen` bytes. -/
def ReadResult.Short : ReadResult → Prop
  | .byte value => value = -1
  | .bytes maxlen dst => dst.length < maxlen.toInt

namespace ReadCall

def dst : ReadCall → List UInt8
  | .readByte => []
  | .readBytes _ dst => dst

/-- `count < maxlen`. -/
def Open : ReadCall → Prop
  | .readByte => True
  | .readBytes maxlen dst => dst.length < maxlen.toInt

end ReadCall

/-- What the call in progress has put into `dst` so far. -/
def Reader.underWay : Reader → List UInt8
  | .idle => []
  | .looking call => call.dst
  | .taking call _ => call.dst

namespace ReadCall
variable {call : ReadCall}

theorem deliver_none (open' : call.Open) :
    ∃ result, call.deliver (-1) = (.idle, some result) ∧ result.data = call.dst ∧ result.Short := by
  cases call with
  | readByte => exact ⟨_, rfl, rfl, rfl⟩
  | readBytes maxlen dst => exact ⟨.bytes maxlen dst, rfl, rfl, open'⟩

/-- Behind a delivery there is no call, or one that asks for more. -/
theorem deliver_reader (call : ReadCall) (b : Int32) :
    (call.deliver b).1 = .idle ∨ ∃ next, (call.deliver b).1 = .looking next ∧ next.Open := by
  cases call with
  | readByte => exact .inl rfl
  | readBytes maxlen dst =>
    rw [deliver]
    dsimp only
    split
    · exact .inl rfl
    · split
      next more => exact .inr ⟨_, rfl, more⟩
      next => exact .inl rfl

section Byte
variable (call) (b : UInt8)

private theorem byte_nonneg : ¬ Int32.ofNat b.toNat < 0 := by
  rw [Int32.lt_iff_toInt_lt, Int32.toInt_ofNat_of_lt (Nat.lt_trans b.toNat_lt (by decide))]
  exact Int.not_lt.mpr (Int.natCast_nonneg _)

private theorem byte_back : (Int32.ofNat b.toNat).toUInt32.toUInt8 = b := by
  rw [Int32.toUInt32_ofNat', UInt32.toUInt8_ofNat', UInt8.ofNat_toNat]

private theorem deliver_bytes (maxlen : Int32) (dst : List UInt8) :
    (readBytes maxlen dst).deliver (Int32.ofNat b.toNat) =
      if (dst ++ [b]).length < maxlen.toInt then (.looking (.readBytes maxlen (dst ++ [b])), none)
      else (.idle, some (.bytes maxlen (dst ++ [b]))) := by
  rw [deliver]
  dsimp only
  rw [if_neg (byte_nonneg b), byte_back]

theorem deliver_data :
    (call.deliver (Int32.ofNat b.toNat)).2.toList.flatMap ReadResult.data ++
      (call.deliver (Int32.ofNat b.toNat)).1.underWay = call.dst ++ [b] := by
  cases call with
  | readByte =>
    change (if Int32.ofNat b.toNat < 0 then [] else [(Int32.ofNat b.toNat).toUInt32.toUInt8]) ++ [] ++ [] = [b]
    rw [if_neg (byte_nonneg b), byte_back]
    rfl
  | readBytes maxlen dst =>
    rw [deliver_bytes]
    split
    · rfl
    · simp [ReadResult.data, Reader.underWay, ReadCall.dst]

theorem deliver_not_short : ∀ result ∈ (call.deliver (Int32.ofNat b.toNat)).2, ¬ result.Short := by
  cases call with
  | readByte =>
    rintro _ ⟨rfl⟩ negative
    exact byte_nonneg b (by rw [negative]; decide)
  | readBytes maxlen dst =>
    rw [deliver_bytes]
    split
    · nofun
    next full =>
      rintro _ ⟨rfl⟩
      exact full

end Byte

end ReadCall

namespace Reception

/-- The bytes returned so far, in order. -/
def returned (s : Reception) : List UInt8 := s.returns.flatMap fun r => r.result.data

/-- What the calls have handed over, with what the call in progress has in `dst`, is the stream up to
the bytes not taken, without a first byte 0x00 or 0xFF. -/
def InOrder (s : Reception) : Prop :=
  s.returned ++ s.reader.underWay = cleaned (s.received.take s.taken) ∧ s.taken ≤ s.received.length

/-- Every call that returned -1 or too few bytes left nothing unread. -/
def NothingLeft (s : Reception) : Prop := ∀ r ∈ s.returns, r.result.Short → r.unread = []

/-- What a step has to find for no call to end too early: a first byte that is dropped is alone, and where
every byte in the ring is taken the channel has left nothing behind. -/
def Clear (s : Reception) : ReceptionAction → Prop
  | .look => s.taken = s.moved.length → s.fifo = []
  | .take => ∀ call seen, s.reader = .taking call seen → s.taken = 0 →
      (seen.head? = some 0x00 ∨ seen.head? = some 0xFF) → seen.length = 1
  | _ => True

/-- The reader between two steps. -/
structure Following (s : Reception) : Prop where
  looking : ∀ call, s.reader = .looking call → call.Open
  taking : ∀ call seen, s.reader = .taking call seen →
    call.Open ∧ s.taken < s.moved.length ∧ s.taken < seen.length ∧ seen <+: s.received

structure Receiving (k : Nat) (s : Reception) (past : List (Reception × ReceptionAction)) : Prop where
  ring : s.Ring k
  order : s.returned ++ s.reader.underWay = cleaned (s.moved.take s.taken)
  reader : s.Following
  clear : s.NothingLeft ↔ ∀ p ∈ past, Clear p.1 p.2

/-- The calls that a step ends, against the condition on the step. -/
theorem nothingLeft_append {s t : Reception} {past : List (Reception × ReceptionAction)} {action : ReceptionAction}
    (before : s.NothingLeft ↔ ∀ p ∈ past, Clear p.1 p.2) {ended : List ReadReturn} (returns : t.returns = s.returns ++ ended)
    (same : (∀ r ∈ ended, r.result.Short → r.unread = []) ↔ s.Clear action) :
    t.NothingLeft ↔ ∀ p ∈ past ++ [(s, action)], Clear p.1 p.2 := by
  rw [NothingLeft, returns, List.forall_mem_append, List.forall_mem_append, List.forall_mem_singleton, same]
  exact and_congr_left' before

namespace Receiving
variable {k : Nat} {s t : Reception} {past : List (Reception × ReceptionAction)} (inv : Receiving k s past)
include inv

theorem following_concat {b : UInt8} (grown : t.received = s.received ++ [b]) (same : t.reader = s.reader)
    (taken : t.taken = s.taken) (moved : s.moved.length ≤ t.moved.length) : t.Following where
  looking call at' := inv.reader.looking call (same ▸ at')
  taking call seen at' := by
    obtain ⟨open', waiting, inside, earlier⟩ := inv.reader.taking call seen (same ▸ at')
    rw [taken, grown]
    exact ⟨open', Nat.lt_of_lt_of_le waiting moved, inside, earlier.trans (List.prefix_append _ _)⟩

theorem receive {b : UInt8} (stepped : s.step (.receive b) = some t) : Receiving k t (past ++ [(s, .receive b)]) := by
  have nothing : (∀ r ∈ ([] : List ReadReturn), r.result.Short → r.unread = []) ↔ s.Clear (.receive b) :=
    iff_of_true (List.forall_mem_nil _) trivial
  rw [step] at stepped
  split at stepped
  next stopped =>
    obtain rfl := Option.some.inj stepped
    refine ⟨⟨inv.ring.sized, inv.ring.aligned, inv.ring.config, inv.ring.write, inv.ring.read, inv.ring.slots,
      inv.ring.behind, inv.ring.ahead, .inr stopped, inv.ring.drop⟩, inv.order,
      inv.following_concat (List.append_assoc _ _ _).symm rfl rfl (Nat.le_refl _),
      nothingLeft_append inv.clear (List.append_nil _).symm nothing⟩
  next running =>
    split at stepped
    next room =>
      obtain rfl := Option.some.inj stepped
      have alone := inv.ring.fifo_nil running
      have grown : (s.moved ++ [b]) ++ s.fifo = s.moved ++ s.fifo ++ [b] := by rw [alone, List.append_nil, List.append_nil]
      refine ⟨inv.ring.transfer b running room, ?_,
        inv.following_concat grown rfl rfl (by rw [List.length_append]; exact Nat.le_add_right _ _),
        nothingLeft_append inv.clear (List.append_nil _).symm nothing⟩
      change _ = cleaned ((s.moved ++ [b]).take s.taken)
      rw [List.take_append_of_le_length inv.ring.behind]
      exact inv.order
    next => cases stepped

theorem enter (action : ReceptionAction) (clear : s.Clear action) {call : ReadCall} (idle : s.reader = .idle)
    (open' : call.Open) (nothing : call.dst = []) : Receiving k { s with reader := .looking call } (past ++ [(s, action)]) := by
  refine ⟨inv.ring.aside _ _, ?_, ⟨fun _ at' => ?_, nofun⟩,
    nothingLeft_append inv.clear (List.append_nil _).symm (iff_of_true (List.forall_mem_nil _) clear)⟩
  · have order := inv.order
    rw [idle] at order
    change s.returned ++ call.dst = _
    rw [nothing]
    exact order
  · cases at'
    exact open'

theorem readBytes {maxlen : Int32} (stepped : s.step (.readBytes maxlen) = some t) :
    Receiving k t (past ++ [(s, .readBytes maxlen)]) := by
  rw [step] at stepped
  split at stepped
  next idle =>
    split at stepped
    next more =>
      obtain rfl := Option.some.inj stepped
      exact inv.enter (.readBytes maxlen) trivial idle (Int32.lt_iff_toInt_lt.mp more) rfl
    next none' =>
      obtain rfl := Option.some.inj stepped
      refine ⟨inv.ring.aside _ _, ?_, ⟨inv.reader.looking, inv.reader.taking⟩,
        nothingLeft_append inv.clear rfl (iff_of_true ?_ trivial)⟩
      · rw [returned, List.flatMap_append, List.flatMap_singleton]
        exact (congrArg (· ++ _) (List.append_nil _)).trans inv.order
      · rw [List.forall_mem_singleton]
        exact fun short => absurd (Int32.lt_iff_toInt_lt.mpr (show (0 : Int32).toInt < maxlen.toInt from short)) none'
  next => cases stepped

theorem look (stepped : s.step .look = some t) : Receiving k t (past ++ [(s, .look)]) := by
  have order := inv.order
  rw [step] at stepped
  split at stepped
  next call at' =>
    have open' := inv.reader.looking call at'
    rw [at'] at order
    split at stepped
    next empty =>
      obtain rfl := Option.some.inj stepped
      obtain ⟨result, delivered, data, short⟩ := ReadCall.deliver_none open'
      have all := inv.ring.empty_iff.mp empty
      have left : s.received.drop s.taken = s.fifo := by rw [received, all, List.drop_left]
      rw [deliver, delivered]
      refine ⟨inv.ring.aside _ _, ?_, ⟨nofun, nofun⟩, nothingLeft_append inv.clear rfl ?_⟩
      · rw [returned, List.flatMap_append]
        change s.returned ++ (result.data ++ []) ++ [] = _
        rw [List.append_nil, List.append_nil, data]
        exact order
      · change (∀ r ∈ [(⟨result, s.received.drop s.taken⟩ : ReadReturn)], _) ↔ _
        rw [List.forall_mem_singleton, left]
        exact ⟨fun nothing _ => nothing short, fun clear _ => clear all⟩
    next some' =>
      obtain rfl := Option.some.inj stepped
      have behind := inv.ring.behind
      have waiting : s.taken < s.moved.length :=
        Nat.lt_of_le_of_ne behind fun same => some' (inv.ring.empty_iff.mpr same)
      refine ⟨inv.ring.aside _ _, order, ⟨nofun, fun _ _ same => ?_⟩, nothingLeft_append inv.clear (List.append_nil _).symm
        (iff_of_true (List.forall_mem_nil _) fun same => absurd same (Nat.ne_of_lt waiting))⟩
      cases same
      refine ⟨open', waiting, ?_, List.prefix_rfl⟩
      rw [received, List.length_append]
      exact Nat.lt_of_lt_of_le waiting (Nat.le_add_right _ _)
  next => cases stepped

theorem takeByte_result : s.rx.takeByte.1 =
    if s.taken = 0 ∧ (s.rx.current = 0x00 ∨ s.rx.current = 0xFF) then -1 else Int32.ofNat s.rx.current.toNat := by
  have result := s.rx.takeByte_result
  simp only [inv.ring.drop, decide_eq_true_eq] at result
  exact result

section Taking
variable {call : ReadCall} {seen : List UInt8} (at' : s.reader = .taking call seen)
include at'

theorem take_succ : s.moved.take (s.taken + 1) = s.moved.take s.taken ++ [s.rx.current] := by
  rw [List.take_add_one, inv.ring.current_eq (inv.reader.taking call seen at').2.1]
  rfl

/-- The first byte to be taken is the first that was seen. -/
theorem head_seen (first : s.taken = 0) : seen.head? = some s.rx.current := by
  obtain ⟨-, waiting, inside, rest, whole⟩ := inv.reader.taking call seen at'
  have current := inv.ring.current_eq waiting
  rw [first] at current inside
  rw [List.head?_eq_getElem?, ← List.getElem?_append_left inside, whole, received,
    List.getElem?_append_left (by rw [← first]; exact waiting), current]

theorem take_dropped (first : s.taken = 0) (garbage : s.rx.current = 0x00 ∨ s.rx.current = 0xFF) :
    Receiving k ({ s with rx := s.rx.takeByte.2, taken := s.taken + 1 }.deliver call (-1) seen) (past ++ [(s, .take)]) := by
  obtain ⟨open', waiting, inside, -⟩ := inv.reader.taking call seen at'
  obtain ⟨last, delivered, data, short⟩ := ReadCall.deliver_none open'
  have order := inv.order
  rw [at', first] at order
  rw [deliver, delivered]
  refine ⟨(inv.ring.takeByte waiting).aside _ _, ?_, ⟨nofun, nofun⟩, nothingLeft_append inv.clear rfl ?_⟩
  · rw [returned, List.flatMap_append]
    change s.returned ++ (last.data ++ []) ++ [] = cleaned (s.moved.take (s.taken + 1))
    rw [List.append_nil, List.append_nil, data, inv.take_succ at', first]
    change _ = if s.rx.current = 0x00 ∨ s.rx.current = 0xFF then [] else [s.rx.current]
    rw [if_pos garbage]
    exact order
  · change (∀ r ∈ [(⟨last, seen.drop (s.taken + 1)⟩ : ReadReturn)], _) ↔ _
    rw [List.forall_mem_singleton, first, List.drop_eq_nil_iff]
    constructor
    · intro nothing _ _ same _ _
      cases at'.symm.trans same
      exact Nat.le_antisymm (nothing short) (Nat.zero_lt_of_lt inside)
    · intro clear _
      refine Nat.le_of_eq (clear call seen at' first ?_)
      rw [inv.head_seen at' first]
      exact garbage.imp (congrArg some) (congrArg some)

theorem take_delivered (kept : ¬ (s.taken = 0 ∧ (s.rx.current = 0x00 ∨ s.rx.current = 0xFF))) :
    Receiving k
      ({ s with rx := s.rx.takeByte.2, taken := s.taken + 1 }.deliver call (Int32.ofNat s.rx.current.toNat) seen)
      (past ++ [(s, .take)]) := by
  obtain ⟨-, waiting, -, -⟩ := inv.reader.taking call seen at'
  have all : cleaned (s.moved.take s.taken ++ [s.rx.current]) = cleaned (s.moved.take s.taken) ++ [s.rx.current] := by
    by_cases first : s.taken = 0
    · rw [first]
      exact if_neg fun garbage => kept ⟨first, garbage⟩
    · refine cleaned_concat (fun none' => ?_) _
      rw [List.take_eq_nil_iff] at none'
      exact none'.elim first fun none' => Nat.not_lt_zero _ (by rwa [none'] at waiting)
  have order := inv.order
  rw [at'] at order
  change s.returned ++ call.dst = _ at order
  rw [deliver]
  refine ⟨(inv.ring.takeByte waiting).aside _ _, ?_, ?_, nothingLeft_append inv.clear rfl (iff_of_true ?_ ?_)⟩
  · rw [returned, List.flatMap_append, List.flatMap_map, List.append_assoc]
    change s.returned ++ (List.flatMap ReadResult.data _ ++ _) = cleaned (s.moved.take (s.taken + 1))
    rw [ReadCall.deliver_data, inv.take_succ at', all, ← order, List.append_assoc]
  · constructor
    · intro next same
      rcases call.deliver_reader (Int32.ofNat s.rx.current.toNat) with idle | ⟨_, looking, more⟩
      · cases idle.symm.trans same
      · cases looking.symm.trans same
        exact more
    · intro next _ same
      rcases call.deliver_reader (Int32.ofNat s.rx.current.toNat) with idle | ⟨_, looking, _⟩
      · cases idle.symm.trans same
      · cases looking.symm.trans same
  · intro r member short
    obtain ⟨last, ended, rfl⟩ := List.mem_map.mp member
    exact absurd short (call.deliver_not_short s.rx.current last (Option.mem_toList.mp ended))
  · intro call' seen' same first garbage
    cases at'.symm.trans same
    rw [inv.head_seen at' first] at garbage
    exact absurd ⟨first, garbage.imp Option.some.inj Option.some.inj⟩ kept

end Taking

theorem take (stepped : s.step .take = some t) : Receiving k t (past ++ [(s, .take)]) := by
  rw [Reception.step] at stepped
  split at stepped
  next call seen at' =>
    obtain rfl := Option.some.inj stepped
    have result := inv.takeByte_result
    by_cases dropped : s.taken = 0 ∧ (s.rx.current = 0x00 ∨ s.rx.current = 0xFF)
    · rw [if_pos dropped] at result
      rw [result]
      exact inv.take_dropped at' dropped.1 dropped.2
    · rw [if_neg dropped] at result
      rw [result]
      exact inv.take_delivered at' dropped
  next => cases stepped

theorem step {action : ReceptionAction} (stepped : s.step action = some t) : Receiving k t (past ++ [(s, action)]) := by
  cases action with
  | receive b => exact inv.receive stepped
  | readByte =>
    rw [Reception.step] at stepped
    split at stepped
    next idle =>
      obtain rfl := Option.some.inj stepped
      exact inv.enter .readByte trivial idle trivial rfl
    next => cases stepped
  | readBytes maxlen => exact inv.readBytes stepped
  | look => exact inv.look stepped
  | take => exact inv.take stepped

end Receiving

section Opened
variable {storable : UInt32 → Bool} {txSize rxSize rxRaw txRaw chunkMax : UInt32} {txBuf : Nat → UInt8}
  {memory : UInt32 → UInt8} {rx : UartRx}

theorem receiving_start
    (opened : ((UartObject.new storable txSize rxSize rxRaw txRaw txBuf chunkMax).bind fun o => o.init.2.rx memory) = some rx) :
    ∃ k, Receiving k (start rx) [] := by
  obtain ⟨none', -⟩ | ⟨rxBuf, allocated, made, -⟩ :=
    @UartObject.new_eq storable txSize rxSize rxRaw txRaw chunkMax txBuf
  · rw [none'] at opened
    cases opened
  rw [made, Option.bind_some] at opened
  by_cases accepted : UartObject.Accepts txSize rxSize
  · obtain ⟨⟨k, power, least, most⟩, j, txPower⟩ := accepted
    rw [UartObject.init_opened _ _ _ power least most txPower] at opened
    obtain rfl := Option.some.inj opened
    refine ⟨k, ⟨⟨power, least, most⟩, alignedAllocForDma_mod power allocated, rfl, ?_, ?_, SlidingWindow.Holds.nil _ _,
      Nat.le_refl _, ?_, .inl rfl, rfl⟩, rfl, ⟨nofun, nofun⟩, iff_of_true (List.forall_mem_nil _) (List.forall_mem_nil _)⟩
    · change rxBuf = rxBuf + UInt32.ofNat (0 % 2 ^ k)
      rw [Nat.zero_mod]
      exact (UInt32.add_zero _).symm
    · change (0 : Int16) = Int16.ofNat (0 % 2 ^ k)
      rw [Nat.zero_mod]
      rfl
    · exact Nat.lt_of_lt_of_le (Nat.two_pow_pos k) (Nat.le_add_left _ _)
  · rw [UartObject.init_refused _ _ _ accepted] at opened
    cases opened

/-- The reader gets the stream in order under every schedule, and each call that ends with -1 or too few
bytes has left nothing unread just if every step was clear. -/
theorem reception_in_order_and_clear_iff
    (opened : ((UartObject.new storable txSize rxSize rxRaw txRaw txBuf chunkMax).bind fun o => o.init.2.rx memory) = some rx)
    {actions : List ReceptionAction} {s : Reception} (ran : Machine.run step (start rx) actions = some s) :
    s.InOrder ∧ (s.NothingLeft ↔ ∀ p ∈ Machine.steps step (start rx) actions, Clear p.1 p.2) := by
  obtain ⟨k, initial⟩ := receiving_start opened
  have reached := Machine.run_invariant (Receiving k) initial (fun inv stepped => inv.step stepped) ran
  have behind := reached.ring.behind
  refine ⟨⟨?_, ?_⟩, reached.clear⟩
  · rw [reached.order, received, List.take_append_of_le_length behind]
  · rw [received, List.length_append]
    exact Nat.le_trans behind (Nat.le_add_right _ _)

private theorem opened_four :
    ((UartObject.new UartObject.sram 4 4 0x20001000 0x20001010 (fun _ => 0) 0).bind fun o => o.init.2.rx fun _ => 0) =
      (UartObject.opened 4 4 0x20001004 (fun _ => 0) 0 2).rx (fun _ => 0) := by
  have made : UartObject.new UartObject.sram 4 4 0x20001000 0x20001010 (fun _ => 0) 0 =
      some (UartObject.fresh 4 4 0x20001004 (fun _ => 0) 0) := rfl
  rw [made, Option.bind_some,
    UartObject.init_opened 0x20001004 (fun _ => 0) 0 (by decide : _ = 2 ^ 2) (by decide) (by decide) (by decide : _ = 2 ^ 2)]

/-- Two bytes read by one call. -/
theorem reception_two_bytes :
    let actions : List ReceptionAction := [.receive 0x41, .receive 0x42, .readBytes 3, .look, .take, .look, .take, .look]
    ∃ rx s, ((UartObject.new UartObject.sram 4 4 0x20001000 0x20001010 (fun _ => 0) 0).bind fun o =>
        o.init.2.rx fun _ => 0) = some rx ∧
      Machine.run step (start rx) actions = some s ∧ s.returned = [0x41, 0x42] ∧ s.InOrder ∧
      (s.NothingLeft ↔ ∀ p ∈ Machine.steps step (start rx) actions, Clear p.1 p.2) :=
  ⟨_, _, opened_four, rfl, rfl, reception_in_order_and_clear_iff opened_four rfl⟩

/-- A first byte 0xFF with another behind it: `read_byte` returns -1 and the other is left unread. -/
theorem dropped_byte_hides_next :
    ∃ rx s, ((UartObject.new UartObject.sram 4 4 0x20001000 0x20001010 (fun _ => 0) 0).bind fun o =>
        o.init.2.rx fun _ => 0) = some rx ∧
      Machine.run step (start rx) [.receive 0xFF, .receive 0x41, .readByte, .look, .take] = some s ∧
      s.returns = [⟨.byte (-1), [0x41]⟩] ∧ ¬ s.NothingLeft := by
  refine ⟨_, _, opened_four, rfl, rfl, fun nothing => ?_⟩
  have left := nothing ⟨.byte (-1), [0x41]⟩ (List.mem_singleton_self _) rfl
  cases left

end Opened

end Reception

end PicoWLogger
