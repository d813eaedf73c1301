import PicoWLogger.TemperatureTask

/-! The connection status and the listener in every run of the WiFi task, and the address as the display shows it. -/

namespace PicoWLogger
open DecimalText HttpServer TemperatureTask

section Address

/-- A text that fits `ip`, of characters other than the terminator. -/
structure IpText (text : List UInt8) : Prop where
  length : text.length ≤ 15
  chars : 0 ∉ text

theorem noIp_text : IpText WifiStatus.NO_IP := ⟨by decide, by decide⟩

variable {lwip : Lwip}

/-- The texts of `ip4addr_ntoa_r` fit its buffer. -/
def Lwip.PrintsAddresses (lwip : Lwip) : Prop := ∀ address, IpText (lwip.ip4addrNtoaR address)

theorem copyCurrentIp_text (prints : lwip.PrintsAddresses) (address : Option (Vector UInt8 4)) :
    IpText (copyCurrentIp lwip address) := by
  cases address with
  | none => exact noIp_text
  | some address => exact prints address

theorem cString_zeros {text : List UInt8} (chars : 0 ∉ text) (n : Nat) : cString (text ++ List.replicate n 0) = text := by
  have all : ∀ c ∈ text, decide (c ≠ 0) = true := fun c member => decide_eq_true fun zero => chars (zero ▸ member)
  rw [cString, List.takeWhile_append_of_pos all]
  cases n with
  | zero => exact List.append_nil _
  | succ n => simp [List.replicate_succ]

theorem ipBytes_toList {text : List UInt8} (short : text.length ≤ 15) :
    (WifiStatus.ipBytes text).toList = text ++ List.replicate (16 - text.length) 0 := by
  apply List.ext_getElem
  · simp
    omega
  · intro i here there
    simp only [WifiStatus.ipBytes, Vector.getElem_toList, Vector.getElem_ofFn]
    by_cases inside : i < text.length
    · rw [if_pos (by omega), List.getElem_append_left inside, List.getD_eq_getElem _ _ inside]
    · rw [List.getElem_append_right (by omega), List.getElem_replicate, List.getD_eq_default _ _ (by omega), ite_self]

theorem rows_spell {text : List UInt8} (fits : IpText text) :
    cString ((WifiStatus.ipBytes text).toList.take 8) = text.take 8 ∧
      cString (((WifiStatus.ipBytes text).toList.drop 8).take 8) = text.drop 8 := by
  have front : 0 ∉ text.take 8 := fun member => fits.chars (List.mem_of_mem_take member)
  have back : 0 ∉ text.drop 8 := fun member => fits.chars (List.mem_of_mem_drop member)
  have short := fits.length
  rw [ipBytes_toList fits.length]
  constructor
  · rw [List.take_append, List.take_replicate]
    exact cString_zeros front _
  · rw [List.drop_append, List.drop_replicate, List.take_append, List.take_replicate,
      List.take_of_length_le (show (text.drop 8).length ≤ 8 by rw [List.length_drop]; omega)]
    exact cString_zeros back _

end Address

/-- What is documented of the calls, with the numbers of the pcbs that are bound to port 80 and of those that listen on it:
`tcp_bind` turns a pcb away while another one holds the port, and the pcb of a `tcp_listen` that fails is not freed. -/
structure Lwip.Documented (lwip : Lwip) (bound listening : lwip.State → Nat) : Prop where
  initial : bound lwip.initial = 0 ∧ listening lwip.initial = 0
  background work s : bound (lwip.background work s) = bound s ∧ listening (lwip.background work s) = listening s
  tcpNew s : bound (lwip.tcpNewIpType s).2 = bound s ∧ listening (lwip.tcpNewIpType s).2 = listening s
  inUse pcb s : 0 < bound s + listening s → (lwip.tcpBind pcb 80 s).1 ≠ ERR_OK
  refused pcb s : (lwip.tcpBind pcb 80 s).1 ≠ ERR_OK →
    bound (lwip.tcpClose pcb (lwip.tcpBind pcb 80 s).2) = bound s ∧
      listening (lwip.tcpClose pcb (lwip.tcpBind pcb 80 s).2) = listening s
  tcpBind pcb s : (lwip.tcpBind pcb 80 s).1 = ERR_OK →
    bound (lwip.tcpBind pcb 80 s).2 = bound s + 1 ∧ listening (lwip.tcpBind pcb 80 s).2 = listening s
  noMemory pcb s t : lwip.tcpListen pcb s = (none, t) → bound t = bound s ∧ listening t = listening s
  tcpListen pcb s pcb' t : 0 < bound s → lwip.tcpListen pcb s = (some pcb', t) →
    bound t + 1 = bound s ∧ listening t = listening s + 1
  tcpAccept pcb s : bound (lwip.tcpAccept pcb s) = bound s ∧ listening (lwip.tcpAccept pcb s) = listening s

section Server
variable {lwip : Lwip} {bound listening : lwip.State → Nat} (documented : lwip.Documented bound listening)
variable {server : Listener lwip} {s : lwip.State}
include documented

/-- What `http_server_init` can do: nothing, leave a bound pcb behind, or start the server on a free port. -/
theorem httpServerInit_cases (server : Listener lwip) (s : lwip.State) :
    let opened := httpServerInit server s
    (opened.1 = server ∧ bound opened.2 = bound s ∧ listening opened.2 = listening s) ∨
      bound s + listening s = 0 ∧ ¬ server.started = true ∧
        (opened.1 = server ∧ bound opened.2 = 1 ∧ listening opened.2 = 0 ∨
          opened.1.started = true ∧ bound opened.2 = 0 ∧ listening opened.2 = 1) := by
  intro opened
  by_cases started : server.started = true
  · have result : opened = (server, s) := if_pos started
    rw [result]
    exact .inl ⟨rfl, rfl, rfl⟩
  obtain ⟨newPcb, s₁, created⟩ : ∃ newPcb s₁, lwip.tcpNewIpType s = (newPcb, s₁) := ⟨_, _, rfl⟩
  obtain ⟨bound₁, listening₁⟩ := documented.tcpNew s
  rw [created] at bound₁ listening₁
  cases newPcb with
  | none =>
    have result : opened = (server, s₁) := by simp only [opened, httpServerInit, if_neg started, created]
    rw [result]
    exact .inl ⟨rfl, bound₁, listening₁⟩
  | some pcb =>
    obtain ⟨err, s₂, binds⟩ : ∃ err s₂, lwip.tcpBind pcb 80 s₁ = (err, s₂) := ⟨_, _, rfl⟩
    by_cases refused : err ≠ ERR_OK
    · obtain ⟨bound₂, listening₂⟩ := documented.refused pcb s₁ (by rw [binds]; exact refused)
      rw [binds] at bound₂ listening₂
      have result : opened = (server, lwip.tcpClose pcb s₂) := by
        simp only [opened, httpServerInit, if_neg started, created, binds, if_pos refused]
      rw [result]
      exact .inl ⟨rfl, bound₂.trans bound₁, listening₂.trans listening₁⟩
    · have took : (lwip.tcpBind pcb 80 s₁).1 = ERR_OK := by rw [binds]; exact not_ne_iff.mp refused
      have free : bound s + listening s = 0 := by
        have busy := mt (documented.inUse pcb s₁) (not_not.mpr took)
        simp only at bound₁ listening₁
        omega
      obtain ⟨bound₂, listening₂⟩ := documented.tcpBind pcb s₁ took
      rw [binds] at bound₂ listening₂
      simp only at bound₁ listening₁ bound₂ listening₂
      obtain ⟨listens, s₃, made⟩ : ∃ listens s₃, lwip.tcpListen pcb s₂ = (listens, s₃) := ⟨_, _, rfl⟩
      refine .inr ⟨free, started, ?_⟩
      cases listens with
      | none =>
        obtain ⟨bound₃, listening₃⟩ := documented.noMemory pcb s₂ s₃ made
        have result : opened = (server, s₃) := by
          simp only [opened, httpServerInit, if_neg started, created, binds, if_neg refused, made]
        rw [result]
        exact .inl ⟨rfl, by simp only; omega, by simp only; omega⟩
      | some listener =>
        obtain ⟨bound₃, listening₃⟩ := documented.tcpListen pcb s₂ listener s₃ (by omega) made
        obtain ⟨bound₄, listening₄⟩ := documented.tcpAccept listener s₃
        have result : opened = ({ started := true, pcb := some listener }, lwip.tcpAccept listener s₃) := by
          simp only [opened, httpServerInit, if_neg started, created, binds, if_neg refused, made]
        rw [result]
        exact .inr ⟨rfl, by simp only; omega, by simp only; omega⟩

end Server

/-- One pcb at most holds the port, and the server has started exactly when that listens. -/
structure HttpServer.Listener.Sound {lwip : Lwip} (bound listening : lwip.State → Nat) (server : Listener lwip)
    (s : lwip.State) : Prop where
  started : listening s = if server.started then 1 else 0
  single : bound s + listening s ≤ 1

namespace WifiTask
variable {lwip : Lwip} {bound listening : lwip.State → Nat}

structure Holds (bound listening : lwip.State → Nat) (task : WifiTask lwip) : Prop where
  state : task.status.state = .gotIp ↔ task.phase = .linked
  ip : task.phase ≠ .linked → task.status.ip = WifiStatus.ipBytes WifiStatus.NO_IP
  listener : task.listener.Sound bound listening task.stack

theorem Holds.unlinked {phase : WifiPhase} (apart : phase ≠ .linked) {state : WifiState} (other : state ≠ .gotIp)
    (status : WifiStatus) (err : Int32) {listener : Listener lwip} {stack : lwip.State}
    (sound : listener.Sound bound listening stack) :
    Holds bound listening { phase, status := status.wifiStatusSet state (some WifiStatus.NO_IP) err, listener, stack } :=
  ⟨⟨fun here => absurd here other, fun here => absurd here apart⟩, fun _ => rfl, sound⟩

section Documented
variable (documented : lwip.Documented bound listening)
include documented

theorem sound_background {server : Listener lwip} {s : lwip.State} (sound : server.Sound bound listening s)
    (work : lwip.Background) : server.Sound bound listening (lwip.background work s) := by
  obtain ⟨sameBound, sameListening⟩ := documented.background work s
  exact ⟨sameListening.trans sound.started, by rw [sameBound, sameListening]; exact sound.single⟩

theorem sound_init {server : Listener lwip} {s : lwip.State} (sound : server.Sound bound listening s) :
    (httpServerInit server s).1.Sound bound listening (httpServerInit server s).2 := by
  rcases httpServerInit_cases documented server s with
    ⟨same, bound', listening'⟩ | ⟨-, idle, ⟨same, bound', listening'⟩ | ⟨started, bound', listening'⟩⟩
  · rw [same]
    exact ⟨listening'.trans sound.started, by rw [bound', listening']; exact sound.single⟩
  · rw [same]
    exact ⟨by rw [listening', if_neg idle], by omega⟩
  · exact ⟨by rw [listening', if_pos started], by omega⟩

theorem Holds.step {task : WifiTask lwip} (holds : task.Holds bound listening) (answer : WifiAnswer lwip) :
    (task.step answer).Holds bound listening := by
  have sound := sound_background documented holds.listener answer.background
  simp only [WifiTask.step]
  split
  next =>
    split
    · exact .unlinked (by decide) (by decide) _ _ sound
    · exact .unlinked (by decide) (by decide) _ _ sound
  next =>
    split
    · exact ⟨⟨fun _ => rfl, fun _ => rfl⟩, fun apart => absurd rfl apart, sound_init documented sound⟩
    · exact .unlinked (by decide) (by decide) _ _ sound
  next =>
    split
    · exact .unlinked (by decide) (by decide) _ _ sound
    · exact ⟨holds.state, holds.ip, sound⟩
  next => exact .unlinked (by decide) (by decide) _ _ sound
  next => exact .unlinked (by decide) (by decide) _ _ sound
  next => exact ⟨holds.state, holds.ip, sound⟩

end Documented

theorem run_append (front back : List (WifiAnswer lwip)) : run (front ++ back) = back.foldl step (run front) :=
  List.foldl_append

theorem run_holds (documented : lwip.Documented bound listening) (answers : List (WifiAnswer lwip)) :
    (run answers).Holds bound listening := by
  induction answers using List.reverseRecOn with
  | nil =>
    obtain ⟨none', silent⟩ := documented.initial
    exact .unlinked (by decide) (by decide) _ _ ⟨silent, by rw [none', silent]; decide⟩
  | append_singleton answers answer ih =>
    rw [run_append]
    exact Holds.step documented ih answer

def Linked (answers : List (WifiAnswer lwip)) (answer : WifiAnswer lwip) : Prop :=
  ∃ front back, answers = front ++ answer :: back ∧ (run front).phase = .connect ∧ answer.ret = 0 ∧
    ∀ later ∈ back, later.ret = CYW43_LINK_UP

/-- A linked task shows the address of its connection, by induction from the last answer. -/
theorem run_linked (answers : List (WifiAnswer lwip)) (linked : (run answers).phase = .linked) :
    ∃ answer, Linked answers answer ∧ (run answers).status.ip = WifiStatus.ipBytes (copyCurrentIp lwip answer.address) := by
  induction answers using List.reverseRecOn with
  | nil => cases linked
  | append_singleton answers last ih =>
    rw [run_append] at linked ⊢
    change ((run answers).step last).phase = .linked at linked
    change ∃ answer, _ ∧ ((run answers).step last).status.ip = _
    cases phase : (run answers).phase with
    | connect =>
      by_cases zero : last.ret = 0
      · refine ⟨last, ⟨answers, [], rfl, phase, zero, List.forall_mem_nil _⟩, ?_⟩
        simp only [step, phase, if_pos zero]
        rfl
      · simp [step, phase, zero] at linked
    | linked =>
      by_cases up : last.ret = CYW43_LINK_UP
      · obtain ⟨answer, ⟨front, back, rfl, connect, zero, rest⟩, ip⟩ := ih phase
        refine ⟨answer, ⟨front, back ++ [last], by simp, connect, zero, ?_⟩, ?_⟩
        · exact List.forall_mem_append.mpr ⟨rest, List.forall_mem_singleton.mpr up⟩
        · simp only [step, phase, up, ne_eq, not_true_eq_false, if_false]
          exact ip
      · simp [step, phase, up] at linked
    | archInit =>
      by_cases failed : last.ret ≠ 0
      · simp [step, phase, failed] at linked
      · simp [step, phase, not_not.mp failed, connect] at linked
    | retry | down => simp [step, phase, connect] at linked
    | deleted => simp [step, phase] at linked

theorem screen_spells (prints : lwip.PrintsAddresses) {shown : Shown} {address : Option (Vector UInt8 4)}
    (state : shown.wifi.state = .gotIp) (ip : shown.wifi.ip = WifiStatus.ipBytes (copyCurrentIp lwip address)) (valid : Bool)
    (count : UInt32) (temperatureC : ℚ) : screen .wiFiIp valid count temperatureC shown =
      ((copyCurrentIp lwip address).take 8, (copyCurrentIp lwip address).drop 8) := by
  obtain ⟨first, second⟩ := rows_spell (copyCurrentIp_text prints address)
  simp only [screen, state, ip, first, second]

structure SameServer (bound listening : lwip.State → Nat) (before after : WifiTask lwip) : Prop where
  listener : after.listener = before.listener
  bound : bound after.stack = bound before.stack
  listening : listening after.stack = listening before.stack

section Documented
variable (documented : lwip.Documented bound listening)
include documented

/-- While a pcb holds the port, no step changes the server. -/
theorem step_server {task : WifiTask lwip} (taken : 0 < bound task.stack + listening task.stack) (answer : WifiAnswer lwip) :
    SameServer bound listening task (task.step answer) := by
  obtain ⟨sameBound, sameListening⟩ := documented.background answer.background task.stack
  have idle : SameServer bound listening task { task with stack := lwip.background answer.background task.stack } :=
    ⟨rfl, sameBound, sameListening⟩
  simp only [step]
  split
  next =>
    split
    · exact ⟨idle.listener, idle.bound, idle.listening⟩
    · exact ⟨idle.listener, idle.bound, idle.listening⟩
  next =>
    split
    · rcases httpServerInit_cases documented task.listener (lwip.background answer.background task.stack) with
        ⟨same, bound', listening'⟩ | ⟨free, -⟩
      · exact ⟨same, bound'.trans sameBound, listening'.trans sameListening⟩
      · omega
    · exact ⟨idle.listener, idle.bound, idle.listening⟩
  next =>
    split
    · exact ⟨idle.listener, idle.bound, idle.listening⟩
    · exact idle
  next => exact ⟨idle.listener, idle.bound, idle.listening⟩
  next => exact ⟨idle.listener, idle.bound, idle.listening⟩
  next => exact idle

theorem foldl_server {task : WifiTask lwip} (taken : 0 < bound task.stack + listening task.stack)
    (answers : List (WifiAnswer lwip)) : SameServer bound listening task (answers.foldl step task) := by
  induction answers generalizing task with
  | nil => exact ⟨rfl, rfl, rfl⟩
  | cons answer answers ih =>
    have one := step_server documented taken answer
    have later := ih (by rw [one.bound, one.listening]; exact taken)
    exact ⟨later.listener.trans one.listener, later.bound.trans one.bound, later.listening.trans one.listening⟩

end Documented

section Instance

/-- The decimals of an address, as `ip4addr_ntoa_r` prints them. -/
def dotted (address : Vector UInt8 4) : List UInt8 :=
  ['.'.toUInt8].intercalate (address.toList.map fun part => decimal part.toNat)

theorem decimal_byte (b : UInt8) : (decimal b.toNat).length ≤ 3 ∧ 0 ∉ decimal b.toNat := by
  refine ⟨length_decimal_le (by decide) (b.toNat_lt.trans (by decide)), fun member => ?_⟩
  have numeric := numeric_decimal _ _ member
  revert numeric
  rw [Numeric]
  decide

theorem dotted_text (address : Vector UInt8 4) : IpText (dotted address) := by
  obtain ⟨a, b, c, d, parts⟩ := List.length_eq_four.mp address.length_toList
  have first := decimal_byte a
  have second := decimal_byte b
  have third := decimal_byte c
  have fourth := decimal_byte d
  have spelled : dotted address = decimal a.toNat ++ '.'.toUInt8 :: (decimal b.toNat ++ '.'.toUInt8 ::
      (decimal c.toNat ++ '.'.toUInt8 :: decimal d.toNat)) := by
    rw [dotted, parts]
    simp [List.intercalate]
  rw [spelled]
  constructor
  · simp only [List.length_append, List.length_cons]
    omega
  · have dot : ¬ (0 : UInt8) = '.'.toUInt8 := by decide
    simp only [List.mem_append, List.mem_cons, first.2, second.2, third.2, fourth.2, dot, or_self, not_false_eq_true]

/-- A stack whose only pcbs are those of the server: as many as are bound, as many as listen, and whether there is memory
for another one that listens. -/
structure PlainStack where
  bound : Nat
  listening : Nat
  memory : Bool

def plainLwip : Lwip where
  State := PlainStack
  Pcb := Unit
  Background := Bool
  initial := ⟨0, 0, true⟩
  tcpNewIpType s := (some (), s)
  tcpBind _ _ s := if 0 < s.bound + s.listening then (-8, s) else (0, { s with bound := s.bound + 1 })
  tcpClose _ s := s
  tcpListen _ s :=
    if s.memory then (some (), { s with bound := s.bound - 1, listening := s.listening + 1 }) else (none, s)
  tcpAccept _ s := s
  background memory s := { s with memory }
  ip4addrNtoaR := dotted

theorem plainLwip_bind (pcb : Unit) (s : PlainStack) :
    0 < s.bound + s.listening ∧ plainLwip.tcpBind pcb 80 s = (-8, s) ∨
      plainLwip.tcpBind pcb 80 s = (0, { s with bound := s.bound + 1 }) := by
  by_cases taken : 0 < s.bound + s.listening
  · exact .inl ⟨taken, if_pos taken⟩
  · exact .inr (if_neg taken)

theorem plainLwip_documented : plainLwip.Documented PlainStack.bound PlainStack.listening where
  initial := ⟨rfl, rfl⟩
  background _ _ := ⟨rfl, rfl⟩
  tcpNew _ := ⟨rfl, rfl⟩
  inUse pcb s taken := by
    have used : plainLwip.tcpBind pcb 80 s = (-8, s) := if_pos taken
    rw [used]
    exact (by decide : (-8 : Int8) ≠ ERR_OK)
  refused pcb s refused := by
    obtain ⟨-, used⟩ | bound := plainLwip_bind pcb s
    · rw [used]
      exact ⟨rfl, rfl⟩
    · rw [bound] at refused
      exact absurd rfl refused
  tcpBind pcb s took := by
    obtain ⟨-, used⟩ | bound := plainLwip_bind pcb s
    · rw [used] at took
      exact absurd took (by decide : (-8 : Int8) ≠ ERR_OK)
    · rw [bound]
      exact ⟨rfl, rfl⟩
  noMemory _ s t failed := by
    by_cases memory : s.memory = true
    · cases (if_pos memory).symm.trans failed
    · cases (if_neg memory).symm.trans failed
      exact ⟨rfl, rfl⟩
  tcpListen _ s _ t held made := by
    by_cases memory : s.memory = true
    · cases (if_pos memory).symm.trans made
      exact ⟨Nat.sub_add_cancel held, rfl⟩
    · cases (if_neg memory).symm.trans made
  tcpAccept _ _ := ⟨rfl, rfl⟩

end Instance

end WifiTask

end PicoWLogger
