import PicoWLogger.HttpServer
import Mathlib.Data.Vector.Basic

/-! `WifiTask.cpp`: the task that keeps the connection, the status that it leaves for the display, and the listener that
`http_server_init` of `HttpServer.cpp` opens. What the WiFi driver answers is given with each step; lwIP is a parameter. -/

namespace PicoWLogger
open DecimalText

inductive WifiState where
  | idle
  | init
  | connecting
  | gotIp
  | error
  deriving DecidableEq

structure WifiStatus where
  state : WifiState
  ip : Vector UInt8 16
  lastError : Int32
  deriving DecidableEq

namespace WifiStatus

/-- What `strncpy` and the terminator leave in `ip`: zeros behind the string. -/
def ipBytes (ip : List UInt8) : Vector UInt8 16 := Vector.ofFn fun i => if i.val < 15 then ip.getD i 0 else 0

def NO_IP : List UInt8 := ascii "0.0.0.0"

def initial : WifiStatus := { state := .idle, ip := ipBytes NO_IP, lastError := 0 }

/-- `none` is a null pointer. -/
def wifiStatusSet (s : WifiStatus) (state : WifiState) (ip : Option (List UInt8)) (err : Int32) : WifiStatus :=
  match ip with
  | some ip => { state, ip := ipBytes ip, lastError := err }
  | none => { s with state, lastError := err }

end WifiStatus

/-- lwIP as far as the server and the task call it: what a call returns, and the state that it leaves. `Background` is
what lwIP does by itself between the calls. -/
structure Lwip where
  State : Type
  Pcb : Type
  Background : Type
  initial : State
  tcpNewIpType : State → Option Pcb × State
  tcpBind : Pcb → UInt16 → State → Int8 × State
  tcpClose : Pcb → State → State
  tcpListen : Pcb → State → Option Pcb × State
  tcpAccept : Pcb → State → State
  background : Background → State → State
  ip4addrNtoaR : Vector UInt8 4 → List UInt8

/-- What is left in the buffer when there is no network interface, or its address. -/
def copyCurrentIp (lwip : Lwip) (address : Option (Vector UInt8 4)) : List UInt8 :=
  match address with
  | some address => lwip.ip4addrNtoaR address
  | none => WifiStatus.NO_IP

namespace HttpServer

/-- `g_http_server_started` and `g_http_pcb`. -/
structure Listener (lwip : Lwip) where
  started : Bool
  pcb : Option lwip.Pcb

/-- A pcb that `tcp_listen` fails on is neither closed nor kept. -/
def httpServerInit {lwip : Lwip} (server : Listener lwip) (s : lwip.State) : Listener lwip × lwip.State :=
  if server.started then (server, s)
  else
    match lwip.tcpNewIpType s with
    | (none, s) => (server, s)
    | (some pcb, s) =>
      match lwip.tcpBind pcb 80 s with
      | (err, s) =>
        if err ≠ ERR_OK then (server, lwip.tcpClose pcb s)
        else
          match lwip.tcpListen pcb s with
          | (none, s) => (server, s)
          | (some pcb, s) => ({ started := true, pcb := some pcb }, lwip.tcpAccept pcb s)

end HttpServer

open HttpServer

inductive WifiPhase where
  | archInit
  | connect
  | linked
  | retry
  /-- Between the loss of the link and the next attempt. -/
  | down
  | deleted
  deriving DecidableEq

structure WifiTask (lwip : Lwip) where
  phase : WifiPhase
  status : WifiStatus
  listener : Listener lwip
  stack : lwip.State

/-- What the call that the task is in returns, with the address behind a successful connect, and what lwIP has done
meanwhile. -/
structure WifiAnswer (lwip : Lwip) where
  ret : Int32
  address : Option (Vector UInt8 4)
  background : lwip.Background

namespace WifiTask

variable {lwip : Lwip}

abbrev CYW43_LINK_UP : Int32 := 3

def start (lwip : Lwip) : WifiTask lwip where
  phase := .archInit
  status := WifiStatus.initial.wifiStatusSet .init (some WifiStatus.NO_IP) 0
  listener := { started := false, pcb := none }
  stack := lwip.initial

/-- The top of the loop. -/
def connect (task : WifiTask lwip) : WifiTask lwip :=
  { task with phase := .connect, status := task.status.wifiStatusSet .connecting (some WifiStatus.NO_IP) 0 }

def step (task : WifiTask lwip) (answer : WifiAnswer lwip) : WifiTask lwip :=
  let task := { task with stack := lwip.background answer.background task.stack }
  match task.phase with
  | .archInit =>
    if answer.ret ≠ 0 then
      { task with phase := .deleted, status := task.status.wifiStatusSet .error (some WifiStatus.NO_IP) (-100) }
    else task.connect
  | .connect =>
    if answer.ret = 0 then
      let opened := httpServerInit task.listener task.stack
      { phase := .linked
        status := task.status.wifiStatusSet .gotIp (some (copyCurrentIp lwip answer.address)) 0
        listener := opened.1
        stack := opened.2 }
    else { task with phase := .retry, status := task.status.wifiStatusSet .error (some WifiStatus.NO_IP) answer.ret }
  | .linked =>
    if answer.ret ≠ CYW43_LINK_UP then
      { task with phase := .down, status := task.status.wifiStatusSet .error (some WifiStatus.NO_IP) answer.ret }
    else task
  | .retry | .down => task.connect
  | .deleted => task

def run (answers : List (WifiAnswer lwip)) : WifiTask lwip := answers.foldl step (start lwip)

end WifiTask

end PicoWLogger
