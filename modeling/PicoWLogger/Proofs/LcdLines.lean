import PicoWLogger.LcdPanel

/-! Texts stay in their row and in their columns, whatever is lost on the bus: characters follow a cursor that the same
call has set, and stop at the first failure. -/

namespace PicoWLogger
open SharedLock

namespace LcdChip
variable {chip : LcdChip}

def overlay (ddram : Nat → UInt8) (address : Nat) (str : List UInt8) (a : Nat) : UInt8 :=
  if address ≤ a ∧ a < address + str.length then str.getD (a - address) 0x20 else ddram a

theorem overlay_nil (ddram : Nat → UInt8) (address : Nat) : overlay ddram address [] = ddram := by
  funext a
  exact if_neg (by simp only [List.length_nil]; omega)

theorem overlay_cons (ddram : Nat → UInt8) (address : Nat) (char : UInt8) (rest : List UInt8) :
    overlay (Function.update ddram address char) (address + 1) rest = overlay ddram address (char :: rest) := by
  funext a
  simp only [overlay, List.length_cons]
  by_cases here : a = address
  · subst here
    rw [if_neg (by omega), if_pos (by omega), Function.update_self, Nat.sub_self, List.getD_cons_zero]
  · rw [Function.update_of_ne here]
    by_cases inside : address + 1 ≤ a ∧ a < address + 1 + rest.length
    · have shift : a - address = (a - (address + 1)) + 1 := by omega
      rw [if_pos inside, if_pos (by omega), shift, List.getD_cons_succ]
    · rw [if_neg inside, if_neg (by omega)]

theorem data_open (open_ : chip.cgram = false) (value : UInt8)
    (inside : chip.address ≠ 0x27 ∧ chip.address ≠ 0x67) :
    chip.receive AQM0802.AQM0802_DATA value =
      { chip with ddram := Function.update chip.ddram chip.address value, address := chip.address + 1 } := by
  rw [receive, if_pos rfl, data, open_, if_neg inside.1, if_neg inside.2]
  rfl

end LcdChip

namespace AQM0802
variable {lcd : AQM0802}

/-- A write that reports success has arrived; one that does not may have. -/
theorem write_run (lcd : AQM0802) (bus : LcdBus) (control value : UInt8) :
    ∃ ok chip, (lcd.write control value).run LcdBus.take LcdBus.perform bus = (ok, { bus.next with chip }) ∧
      (chip = bus.chip.receive control value ∨ ok = false ∧ chip = bus.chip) := by
  have transfer : ∃ ret chip, LcdBus.perform bus (.i2cWrite lcd.address [control, value] false) =
      ((ret : Int), { bus.next with chip }) ∧
      (chip = bus.chip.receive control value ∨ ret ≠ 2 ∧ chip = bus.chip) := by
    cases outcome : bus.writes 0 with
    | locked => exact ⟨-1, bus.chip, by simp only [LcdBus.perform, outcome]; rfl, .inr ⟨by decide, rfl⟩⟩
    | failed received =>
      cases received with
      | false => exact ⟨-1, bus.chip, by simp only [LcdBus.perform, outcome]; rfl, .inr ⟨by decide, rfl⟩⟩
      | true => exact ⟨-1, _, by simp only [LcdBus.perform, outcome]; rfl, .inl rfl⟩
    | sent => exact ⟨2, _, by simp only [LcdBus.perform, outcome]; rfl, .inl rfl⟩
  obtain ⟨ret, chip, transfer, reached⟩ := transfer
  have sent : decide (ret = 2) = false ∧ chip = bus.chip ∨ chip = bus.chip.receive control value := by
    rcases reached with all | ⟨error, nothing⟩
    · exact .inr all
    · exact .inl ⟨decide_eq_false error, nothing⟩
  cases mutex : lcd.i2cMutex with
  | false =>
    refine ⟨decide (ret = 2), chip, ?_, sent.symm⟩
    simp only [write, lockI2c, unlockI2c, mutex, Bool.false_eq_true, ↓reduceIte, Program.run, transfer]
  | true =>
    cases outcome : bus.writes 0 with
    | locked =>
      refine ⟨false, bus.chip, ?_, .inr ⟨rfl, rfl⟩⟩
      simp only [write, lockI2c, mutex, ↓reduceIte, Program.run, LcdBus.take, outcome, Bool.false_eq_true]
      rfl
    | _ =>
      refine ⟨decide (ret = 2), chip, ?_, sent.symm⟩
      simp only [write, lockI2c, unlockI2c, mutex, ↓reduceIte, Program.run, LcdBus.take, outcome, transfer]

/-- The characters of a text up to the first failure are laid over the cells from the cursor on. -/
theorem print_run (lcd : AQM0802) (bus : LcdBus) (str : List UInt8) (open_ : bus.chip.cgram = false)
    (inside : bus.chip.address + str.length ≤ 0x27 ∨ 0x28 ≤ bus.chip.address ∧ bus.chip.address + str.length ≤ 0x67) :
    ∃ ok after front, (lcd.print str).run LcdBus.take LcdBus.perform bus = (ok, after) ∧ front <+: str ∧
      (ok = true → front = str) ∧ after.chip.displayOn = bus.chip.displayOn ∧
      after.chip.ddram = LcdChip.overlay bus.chip.ddram bus.chip.address front := by
  induction str generalizing bus with
  | nil => exact ⟨true, bus, [], rfl, List.nil_prefix, fun _ => rfl, rfl, (LcdChip.overlay_nil _ _).symm⟩
  | cons char rest ih =>
    rw [List.length_cons] at inside
    obtain ⟨ok, chip, written, reached⟩ := lcd.write_run bus AQM0802_DATA char
    rw [print, Program.run_bind, data, written]
    have cell := LcdChip.data_open open_ char (by omega)
    cases ok with
    | true =>
      obtain rfl : chip = bus.chip.receive AQM0802_DATA char := reached.resolve_right fun lost => Bool.false_ne_true lost.1.symm
      rw [cell]
      obtain ⟨ok, after, front, later, part, whole, on, ddram⟩ := ih
        { bus.next with chip := { bus.chip with
            ddram := Function.update bus.chip.ddram bus.chip.address char, address := bus.chip.address + 1 } }
        open_ (by dsimp only; omega)
      refine ⟨ok, after, char :: front, later, (List.prefix_cons_inj char).mpr part, fun done => by rw [whole done], on, ?_⟩
      rw [ddram]
      exact LcdChip.overlay_cons _ _ _ _
    | false =>
      rcases reached with rfl | ⟨-, rfl⟩
      · refine ⟨false, _, [char], rfl, (List.prefix_cons_inj char).mpr List.nil_prefix, fun done => absurd done Bool.false_ne_true,
          ?_, ?_⟩
        · rw [cell]
        · rw [cell, ← LcdChip.overlay_cons, LcdChip.overlay_nil]
      · exact ⟨false, _, [], rfl, List.nil_prefix, fun done => absurd done Bool.false_ne_true, rfl,
          (LcdChip.overlay_nil _ _).symm⟩

def rowOf (row : UInt8) : Nat := if row = 0 then 0 else 1

theorem setCursor_receive (chip : LcdChip) (row : UInt8) :
    chip.receive AQM0802_CMD (SET_DDRAM_ADDR ||| (if row = 0 then 0 else 0x40 + 0)) =
      { chip with address := rowOf row * 0x40, cgram := false } := by
  rw [rowOf]
  split <;> rfl

theorem line_length (str : List UInt8) : (line str).length = 8 := by
  rw [line, List.length_append, List.length_take, List.length_replicate]
  omega

theorem printLine_run (lcd : AQM0802) (bus : LcdBus) (row : UInt8) (str : List UInt8) :
    ∃ ok after front, (lcd.printLine row str).run LcdBus.take LcdBus.perform bus = (ok, after) ∧ front <+: line str ∧
      (ok = true → front = line str) ∧ after.chip.displayOn = bus.chip.displayOn ∧
      after.chip.ddram = LcdChip.overlay bus.chip.ddram (rowOf row * 0x40) front := by
  obtain ⟨ok, chip, set, reached⟩ := lcd.write_run bus AQM0802_CMD (SET_DDRAM_ADDR ||| (if row = 0 then 0 else 0x40 + 0))
  rw [setCursor_receive] at reached
  rw [printLine, Program.run_bind, setCursor, command, set]
  cases ok with
  | true =>
    obtain rfl := reached.resolve_right fun lost => Bool.false_ne_true lost.1.symm
    have inside : rowOf row = 0 ∨ rowOf row = 1 := by
      rw [rowOf]
      split <;> simp
    exact lcd.print_run { bus.next with chip := { bus.chip with address := rowOf row * 0x40, cgram := false } } (line str) rfl
      (by rw [line_length]; dsimp only; omega)
  | false =>
    refine ⟨false, _, [], rfl, List.nil_prefix, fun done => absurd done Bool.false_ne_true, ?_, ?_⟩
    · rcases reached with rfl | ⟨-, rfl⟩ <;> rfl
    · rw [LcdChip.overlay_nil]
      rcases reached with rfl | ⟨-, rfl⟩ <;> rfl

theorem clear_run (lcd : AQM0802) (bus : LcdBus) :
    ∃ ok after, lcd.clear.run LcdBus.take LcdBus.perform bus = (ok, after) ∧ after.chip.displayOn = bus.chip.displayOn ∧
      (after.chip.ddram = (fun _ => 0x20) ∨ after.chip.ddram = bus.chip.ddram) := by
  obtain ⟨ok, chip, cleared, reached⟩ := lcd.write_run bus AQM0802_CMD CLEAR
  refine ⟨ok, _, cleared, ?_⟩
  rcases reached with rfl | ⟨-, rfl⟩
  · exact ⟨rfl, .inl rfl⟩
  · exact ⟨rfl, .inr rfl⟩

theorem commands_run (lcd : AQM0802) (bus : LcdBus) (table : List UInt8) :
    ∃ ok after, (lcd.commands table).run LcdBus.take LcdBus.perform bus = (ok, after) ∧
      (ok = true → after.chip = table.foldl LcdChip.command bus.chip) := by
  induction table generalizing bus with
  | nil => exact ⟨true, bus, rfl, fun _ => rfl⟩
  | cons cmd rest ih =>
    obtain ⟨ok, chip, written, reached⟩ := lcd.write_run bus AQM0802_CMD cmd
    rw [commands, Program.run_bind, command, written]
    cases ok with
    | true =>
      obtain rfl := reached.resolve_right fun lost => Bool.false_ne_true lost.1.symm
      exact ih { bus.next with chip := bus.chip.receive AQM0802_CMD cmd }
    | false => exact ⟨false, _, rfl, fun done => absurd done Bool.false_ne_true⟩

theorem write_sent (lcd : AQM0802) {bus : LcdBus} (sent : bus.writes 0 = .sent) (control value : UInt8) :
    (lcd.write control value).run LcdBus.take LcdBus.perform bus =
      (true, { bus.next with chip := bus.chip.receive control value }) := by
  cases mutex : lcd.i2cMutex with
  | false => simp [write, lockI2c, unlockI2c, mutex, Program.run, LcdBus.perform, sent]
  | true => simp [write, lockI2c, unlockI2c, mutex, Program.run, LcdBus.take, LcdBus.perform, sent]

theorem commands_sent (lcd : AQM0802) (bus : LcdBus) (table : List UInt8) (sent : ∀ n < table.length, bus.writes n = .sent) :
    ∃ after, (lcd.commands table).run LcdBus.take LcdBus.perform bus = (true, after) ∧
      ∀ n, after.writes n = bus.writes (n + table.length) := by
  induction table generalizing bus with
  | nil => exact ⟨bus, rfl, fun _ => rfl⟩
  | cons cmd rest ih =>
    obtain ⟨after, later, writes⟩ := ih { bus.next with chip := bus.chip.receive AQM0802_CMD cmd }
      fun n below => sent (n + 1) (Nat.succ_lt_succ below)
    refine ⟨after, ?_, writes⟩
    rw [commands, Program.run_bind, command, lcd.write_sent (sent 0 (Nat.succ_pos _))]
    exact later

theorem init_sent (lcd : AQM0802) (bus : LcdBus) (sent : ∀ n < 9, bus.writes n = .sent) :
    ∃ start, lcd.init.run LcdBus.take LcdBus.perform bus = (true, start) := by
  obtain ⟨middle, first, writes⟩ := lcd.commands_sent bus initCmds1 fun n below => sent n (Nat.lt_trans below (by decide))
  obtain ⟨start, second, -⟩ := lcd.commands_sent middle initCmds2 fun n below => by
    rw [writes]
    exact sent _ (Nat.add_lt_add_right below 6)
  refine ⟨start, ?_⟩
  rw [init, Program.run_bind, first]
  exact second

theorem init_blank {lcd : AQM0802} {bus start : LcdBus}
    (initialized : lcd.init.run LcdBus.take LcdBus.perform bus = (true, start)) :
    start.chip.displayOn = true ∧ start.chip.ddram = fun _ => 0x20 := by
  obtain ⟨ok, middle, first, chip⟩ := lcd.commands_run bus initCmds1
  rw [init, Program.run_bind, first] at initialized
  cases ok with
  | false => exact absurd (congrArg Prod.fst initialized) Bool.false_ne_true
  | true =>
    obtain ⟨ok, after, second, chip'⟩ := lcd.commands_run middle initCmds2
    dsimp only at initialized
    rw [if_pos rfl, second] at initialized
    cases initialized
    rw [chip' rfl]
    exact ⟨rfl, rfl⟩

theorem rowOf_lt (row : UInt8) : rowOf row < 2 := by
  rw [rowOf]
  split <;> decide

/-- What a text up to the first failure makes of a place of the glass. -/
theorem shown_overlay {chip chip' : LcdChip} {front str : List UInt8} {row row' col : Nat} (part : front <+: line str)
    (ddram : chip'.ddram = LcdChip.overlay chip.ddram (row * 0x40) front) (rows : row < 2 ∧ row' < 2) (cols : col < 8) :
    chip'.shown row' col = if row' = row ∧ col < front.length then (line str).getD col 0x20 else chip.shown row' col := by
  have short : front.length ≤ 8 := part.length_le.trans (line_length str).le
  rw [LcdChip.shown, ddram, LcdChip.overlay]
  by_cases here : row' = row ∧ col < front.length
  · obtain ⟨rfl, inside⟩ := here
    obtain ⟨back, whole⟩ := part
    have column : row' * 0x40 + col - row' * 0x40 = col := by omega
    rw [if_pos (by omega), if_pos ⟨rfl, inside⟩, column, ← whole, List.getD_append _ _ _ _ inside]
  · rw [if_neg (by omega), if_neg here]
    rfl

theorem call_shown (lcd : AQM0802) (bus : LcdBus) (next : LcdCall) :
    ∃ ok after, (lcd.call next).run LcdBus.take LcdBus.perform bus = (ok, after) ∧
      after.chip.displayOn = bus.chip.displayOn ∧
      (∀ row < 2, ∀ col < 8, after.chip.shown row col = 0x20 ∨ after.chip.shown row col = bus.chip.shown row col ∨
        ∃ r str, next = .printLine r str ∧ rowOf r = row ∧ after.chip.shown row col = (line str).getD col 0x20) ∧
      ∀ r str, next = .printLine r str → (ok = true → ∀ col < 8, after.chip.shown (rowOf r) col = (line str).getD col 0x20) ∧
        ∀ row < 2, rowOf r ≠ row → ∀ col < 8, after.chip.shown row col = bus.chip.shown row col := by
  cases next with
  | clear =>
    obtain ⟨ok, after, cleared, on, ddram⟩ := lcd.clear_run bus
    refine ⟨ok, after, cleared, on, fun row _ col _ => ?_, fun _ _ same => LcdCall.noConfusion same⟩
    rcases ddram with blank | kept
    · exact .inl (congrFun blank _)
    · exact .inr (.inl (congrFun kept _))
  | printLine r str =>
    obtain ⟨ok, after, front, printed, part, whole, on, ddram⟩ := lcd.printLine_run bus r str
    have cell : ∀ row < 2, ∀ col < 8, after.chip.shown row col =
        if row = rowOf r ∧ col < front.length then (line str).getD col 0x20 else bus.chip.shown row col :=
      fun row below col inside => shown_overlay part ddram ⟨rowOf_lt r, below⟩ inside
    refine ⟨ok, after, printed, on, fun row below col inside => ?_, fun r' str' same => ?_⟩
    · rw [cell row below col inside]
      split
      next here => exact .inr (.inr ⟨r, str, rfl, here.1.symm, rfl⟩)
      · exact .inr (.inl rfl)
    · cases same
      refine ⟨fun done col inside => ?_, fun row below apart col inside => ?_⟩
      · have long : front.length = 8 := by rw [whole done, line_length]
        rw [cell _ (rowOf_lt r) col inside, if_pos ⟨rfl, long ▸ inside⟩]
      · rw [cell row below col inside, if_neg fun here => apart here.1.symm]

theorem session_shown (lcd : AQM0802) (bus : LcdBus) (calls : List LcdCall) :
    (lcd.session bus calls).2.chip.displayOn = bus.chip.displayOn ∧
      ∀ row < 2, ∀ col < 8,
        ((lcd.session bus calls).2.chip.shown row col = 0x20 ∨
          (lcd.session bus calls).2.chip.shown row col = bus.chip.shown row col ∨
          ∃ r str, .printLine r str ∈ calls ∧ rowOf r = row ∧
            (lcd.session bus calls).2.chip.shown row col = (line str).getD col 0x20) ∧
        ((∀ call ∈ calls, ∃ r str, call = .printLine r str ∧ rowOf r ≠ row) →
          (lcd.session bus calls).2.chip.shown row col = bus.chip.shown row col) := by
  induction calls generalizing bus with
  | nil => exact ⟨rfl, fun row _ col _ => ⟨.inr (.inl rfl), fun _ => rfl⟩⟩
  | cons next rest ih =>
    obtain ⟨ok, after, one, on, cells, text⟩ := lcd.call_shown bus next
    obtain ⟨on', cells'⟩ := ih after
    rw [session, one]
    refine ⟨on'.trans on, fun row below col inside => ⟨?_, fun elsewhere => ?_⟩⟩
    · rcases (cells' row below col inside).1 with blank | kept | ⟨r, str, member, same, shown⟩
      · exact .inl blank
      · rcases cells row below col inside with blank | kept' | ⟨r, str, rfl, same, shown⟩
        · exact .inl (kept.trans blank)
        · exact .inr (.inl (kept.trans kept'))
        · exact .inr (.inr ⟨r, str, List.mem_cons_self, same, kept.trans shown⟩)
      · exact .inr (.inr ⟨r, str, List.mem_cons_of_mem _ member, same, shown⟩)
    · obtain ⟨r, str, rfl, apart⟩ := elsewhere next List.mem_cons_self
      have kept := (text r str rfl).2 row below apart col inside
      exact ((cells' row below col inside).2 fun call member => elsewhere call (List.mem_cons_of_mem _ member)).trans kept

theorem session_append (lcd : AQM0802) (bus : LcdBus) (front back : List LcdCall) :
    lcd.session bus (front ++ back) =
      ((lcd.session bus front).1 ++ (lcd.session (lcd.session bus front).2 back).1,
        (lcd.session (lcd.session bus front).2 back).2) := by
  induction front generalizing bus with
  | nil => rfl
  | cons next rest ih =>
    rw [List.cons_append, session, ih]
    rfl

theorem session_length (lcd : AQM0802) (bus : LcdBus) (calls : List LcdCall) : (lcd.session bus calls).1.length = calls.length := by
  induction calls generalizing bus with
  | nil => rfl
  | cons next rest ih => exact congrArg (· + 1) (ih _)

/-- A call that the bus does not fail prints its line, and calls on the other row leave that. -/
theorem session_text (lcd : AQM0802) (start : LcdBus) (front : List LcdCall) (r : UInt8) (str : List UInt8) (back : List LcdCall)
    (answered : (lcd.session start (front ++ .printLine r str :: back)).1.getD front.length false = true)
    (elsewhere : ∀ call ∈ back, ∃ r' str', call = .printLine r' str' ∧ rowOf r' ≠ rowOf r) {col : Nat} (inside : col < 8) :
    (lcd.session start (front ++ .printLine r str :: back)).2.chip.shown (rowOf r) col = (line str).getD col 0x20 := by
  obtain ⟨ok, after, one, -, -, text⟩ := lcd.call_shown (lcd.session start front).2 (.printLine r str)
  have later : lcd.session (lcd.session start front).2 (.printLine r str :: back) =
      (ok :: (lcd.session after back).1, (lcd.session after back).2) := by
    rw [session, one]
  rw [session_append, later] at answered ⊢
  rw [List.getD_append_right _ _ _ _ (session_length lcd start front).le, session_length, Nat.sub_self,
    List.getD_cons_zero] at answered
  have kept := ((lcd.session_shown after back).2 (rowOf r) (rowOf_lt r) col inside).2 elsewhere
  exact kept.trans ((text r str rfl).1 answered col inside)

/-- From a successful `init` on, whatever fails: every place of the glass is blank or shows the character that a text
printed to its row has in its column, and a row shows the whole of a text whose printing succeeded until the next call
for that row. -/
theorem rows_keep_texts {lcd : AQM0802} {bus start : LcdBus}
    (initialized : lcd.init.run LcdBus.take LcdBus.perform bus = (true, start)) (calls : List LcdCall) :
    (lcd.session start calls).2.chip.displayOn = true ∧
      (∀ row < 2, ∀ col < 8, (lcd.session start calls).2.chip.shown row col = 0x20 ∨
        ∃ r str, .printLine r str ∈ calls ∧ rowOf r = row ∧
          (lcd.session start calls).2.chip.shown row col = (line str).getD col 0x20) ∧
      ∀ front r str back, calls = front ++ .printLine r str :: back →
        (lcd.session start calls).1.getD front.length false = true →
        (∀ call ∈ back, ∃ r' str', call = .printLine r' str' ∧ rowOf r' ≠ rowOf r) →
        ∀ col < 8, (lcd.session start calls).2.chip.shown (rowOf r) col = (line str).getD col 0x20 := by
  obtain ⟨on, blank⟩ := init_blank initialized
  obtain ⟨on', cells⟩ := lcd.session_shown start calls
  refine ⟨on'.trans on, fun row below col inside => ?_, ?_⟩
  · rcases (cells row below col inside).1 with blank' | kept | text
    · exact .inl blank'
    · exact .inl (kept.trans (congrFun blank _))
    · exact .inr text
  · rintro front r str back rfl answered elsewhere col inside
    exact session_text lcd start front r str back answered elsewhere inside

/-- Two lines over a bus that loses a character of the second. -/
theorem rows_keep_texts_lost :
    let bus : LcdBus :=
      { chip := { ddram := fun _ => 0, address := 0, cgram := false, extended := false, displayOn := false }
        writes := fun n => if n = 20 then .failed false else .sent }
    let calls : List LcdCall := [.printLine 0 [0x4C, 0x4F, 0x47], .printLine 1 [0x31, 0x32, 0x33]]
    ∃ start, aqm0802.init.run LcdBus.take LcdBus.perform bus = (true, start) ∧
      (aqm0802.session start calls).2.chip.displayOn = true ∧
      (∀ row < 2, ∀ col < 8, (aqm0802.session start calls).2.chip.shown row col = 0x20 ∨
        ∃ r str, .printLine r str ∈ calls ∧ rowOf r = row ∧
          (aqm0802.session start calls).2.chip.shown row col = (line str).getD col 0x20) ∧
      ∀ front r str back, calls = front ++ .printLine r str :: back →
        (aqm0802.session start calls).1.getD front.length false = true →
        (∀ call ∈ back, ∃ r' str', call = .printLine r' str' ∧ rowOf r' ≠ rowOf r) →
        ∀ col < 8, (aqm0802.session start calls).2.chip.shown (rowOf r) col = (line str).getD col 0x20 := by
  intro bus calls
  obtain ⟨start, initialized⟩ := aqm0802.init_sent bus fun n below => if_neg (by omega)
  exact ⟨start, initialized, rows_keep_texts initialized calls⟩

end AQM0802

end PicoWLogger
