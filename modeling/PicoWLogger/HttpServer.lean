import PicoWLogger.Lib.DecimalText

/-! `HttpServer.cpp`: the receive callback of a connection. A segment is the bytes of one buffer chain, a C string its
characters in front of the terminator, and a connection the calls that the callback made on it. What lwIP answers to
`tcp_write` and `tcp_close` is given with each segment. -/

namespace PicoWLogger.HttpServer
open DecimalText

abbrev ERR_OK : Int8 := 0

abbrev ERR_ABRT : Int8 := -13

abbrev HTTP_BODY_SIZE : Nat := 2048

abbrev HTTP_RESPONSE_SIZE : Nat := 3072

abbrev FiniteFloat := { q : ℚ // |q| < 2 ^ 128 }

structure EnvironmentData where
  temperature : FiniteFloat
  humidity : FiniteFloat
  pressure : FiniteFloat
  valid : Bool

/-- The text that `snprintf` leaves in a buffer. -/
def snprintf (size : Nat) (text : List UInt8) : List UInt8 := text.take (size - 1)

def jsonText (env : EnvironmentData) : List UInt8 :=
  if env.valid then
    ascii "\x7b\"valid\":true,\"temperature\":" ++ fixed 2 env.temperature.val ++ ascii ",\"humidity\":" ++
      fixed 2 env.humidity.val ++ ascii ",\"pressure\":" ++ fixed 2 env.pressure.val ++ ascii "\x7d"
  else ascii "\x7b\"valid\":false\x7d"

def makeJsonBody (bodySize : Nat) (env : EnvironmentData) : List UInt8 := snprintf bodySize (jsonText env)

/-- The page, with `%%` printed as `%`. -/
def htmlText : List UInt8 :=
  ["<!DOCTYPE html>",
    "<html>",
    "<head>",
    "<meta charset=\"UTF-8\">",
    "<title>PicoW Logger</title>",
    "</head>",
    "<body>",
    "<h1>PicoW Environment Logger</h1>",
    "<p>Temperature: <span id=\"temperature\">--</span> &deg;C</p>",
    "<p>Humidity: <span id=\"humidity\">--</span> %</p>",
    "<p>Pressure: <span id=\"pressure\">--</span> hPa</p>",
    "<p>Status: <span id=\"status\">starting...</span></p>",
    "<script>",
    "function updateEnv() \x7b",
    "fetch('/api/env')",
    ".then(function(response)\x7b",
    "return response.json();",
    "\x7d)",
    ".then(function(data) \x7b",
    "if (data.valid !== true)\x7b",
    "document.getElementById('status').textContent = 'Sensor data is not ready';",
    "return;",
    "\x7d",
    "const temperature = Number(data.temperature);",
    "const humidity = Number(data.humidity);",
    "const pressure = Number(data.pressure);",
    "document.getElementById('temperature').textContent = temperature.toFixed(2);",
    "document.getElementById('humidity').textContent = humidity.toFixed(2);",
    "document.getElementById('pressure').textContent = pressure.toFixed(2);",
    "document.getElementById('status').textContent = 'OK';",
    "\x7d)",
    ".catch(function(error) \x7b",
    "document.getElementById('status').textContent = 'HTTP error';",
    "\x7d);",
    "\x7d",
    "updateEnv();",
    "setInterval(updateEnv, 5000);",
    "</script>",
    "</body>",
    "</html>"].flatMap ascii

def makeHtmlBody (bodySize : Nat) : List UInt8 := snprintf bodySize htmlText

def JSON_TYPE : List UInt8 := ascii "application/json; charset=UTF-8"

def HTML_TYPE : List UInt8 := ascii "text/html; charset=UTF-8"

def responseText (contentType body : List UInt8) : List UInt8 :=
  ascii "HTTP/1.1 200 OK\r\nContent-Type: " ++ contentType ++
    ascii "\r\nConnection: close\r\nCache-Control: no-store\r\nContent-Length: " ++ decimal body.length ++
    ascii "\r\n\r\n" ++ body

/-- The response, and whether it fits its buffer; one that does not is left empty. -/
def makeHttpResponse (responseSize : Nat) (contentType body : List UInt8) : List UInt8 × Bool :=
  if responseSize ≤ (responseText contentType body).length then ([], false)
  else (snprintf responseSize (responseText contentType body), true)

/-- `strncmp(a, b, n) == 0`. -/
def strncmp : List UInt8 → List UInt8 → Nat → Bool
  | _, _, 0 => true
  | a, b, n + 1 => a.headD 0 == b.headD 0 && (a.headD 0 == 0 || strncmp a.tail b.tail n)

def httpRequestIsApi (p : Option (List UInt8)) : Bool :=
  match p with
  | none => false
  | some segment =>
    let req := segment.take 95
    strncmp req (ascii "GET /api ") 9 || strncmp req (ascii "GET /api?") 9 ||
      strncmp req (ascii "GET /api/env ") 13 || strncmp req (ascii "GET /api/env?") 13

/-- A call that the callback makes on its connection, with the result that it looks at. -/
inductive TcpCall where
  | recved (length : Nat)
  | write (data : List UInt8) (err : Int8)
  | output
  | close (err : Int8)
  | abort
  deriving DecidableEq

/-- What a callback meets: the sensor values at the time, and the results of `tcp_write` and `tcp_close`. -/
structure Surroundings where
  env : EnvironmentData
  write : Int8
  close : Int8

def httpRecvCallback (around : Surroundings) (p : Option (List UInt8)) (err : Int8) : List TcpCall × Int8 :=
  match p with
  | none => ([.close around.close], ERR_OK)
  | some segment =>
    if err ≠ ERR_OK then ([.close around.close], err)
    else
      let response :=
        if httpRequestIsApi p then
          (makeHttpResponse HTTP_RESPONSE_SIZE JSON_TYPE (makeJsonBody HTTP_BODY_SIZE around.env)).1
        else (makeHttpResponse HTTP_RESPONSE_SIZE HTML_TYPE (makeHtmlBody HTTP_BODY_SIZE)).1
      let received : List TcpCall := [.recved segment.length, .write response around.write]
      if around.write ≠ ERR_OK then (received ++ [.abort], ERR_ABRT)
      else if around.close ≠ ERR_OK then (received ++ [.output, .close around.close, .abort], ERR_ABRT)
      else (received ++ [.output, .close around.close], ERR_OK)

structure Delivery where
  segment : List UInt8
  nonempty : segment ≠ []
  around : Surroundings

/-- The calls made on a connection, and whether lwIP delivers what comes next. -/
structure Connection where
  calls : List TcpCall
  receiving : Bool

namespace Connection

/-- The connection is gone when the callback returned `ERR_ABRT`. Once it was closed, `late` says whether lwIP goes on
delivering what the peer still sends. -/
def deliver (late : Bool) (c : Connection) (d : Delivery) : Connection :=
  if c.receiving then
    let turn := httpRecvCallback d.around (some d.segment) ERR_OK
    ⟨c.calls ++ turn.1, turn.2 ≠ ERR_ABRT ∧ (late ∨ .close ERR_OK ∉ turn.1)⟩
  else c

def serve (late : Bool) (deliveries : List Delivery) : Connection := deliveries.foldl (deliver late) ⟨[], true⟩

def responses (c : Connection) : List (List UInt8) :=
  c.calls.filterMap fun
    | .write data err => if err = ERR_OK then some data else none
    | _ => none

end Connection

end PicoWLogger.HttpServer
