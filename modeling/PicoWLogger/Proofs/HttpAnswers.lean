import PicoWLogger.HttpServer

/-! What a request is answered when its bytes come in several segments. The callback keeps nothing between two
segments: it judges, answers and closes on each. -/

namespace PicoWLogger.HttpServer
open DecimalText

/-- The beginnings of a request for the JSON. -/
def apiStarts : List (List UInt8) :=
  [ascii "GET /api ", ascii "GET /api?", ascii "GET /api/env ", ascii "GET /api/env?"]

def IsApi (request : List UInt8) : Prop := ∃ start ∈ apiStarts, start <+: request

instance : DecidablePred IsApi := fun request => inferInstanceAs (Decidable (∃ start ∈ apiStarts, start <+: request))

theorem IsApi.append {front : List UInt8} (api : IsApi front) (back : List UInt8) : IsApi (front ++ back) := by
  obtain ⟨start, among, isPrefix⟩ := api
  exact ⟨start, among, isPrefix.trans (List.prefix_append front back)⟩

section Classify

/-- Against a text without a terminator, `strncmp` looks at all of its characters. -/
theorem strncmp_iff (a b : List UInt8) (text : 0 ∉ b) : strncmp a b b.length = true ↔ b <+: a := by
  induction b generalizing a with
  | nil => simp [strncmp]
  | cons y b ih =>
    obtain ⟨visible, rest⟩ : y ≠ 0 ∧ 0 ∉ b := by
      rw [List.mem_cons, not_or] at text
      exact ⟨fun zero => text.1 zero.symm, text.2⟩
    rw [List.length_cons, strncmp, List.headD_cons, List.tail_cons]
    cases a with
    | nil =>
      have differ : ((0 : UInt8) == y) = false := beq_eq_false_iff_ne.mpr visible.symm
      simp [differ]
    | cons x a =>
      rw [List.headD_cons, List.tail_cons, List.cons_prefix_cons, ← ih a rest, Bool.and_eq_true, beq_iff_eq]
      constructor
      · rintro ⟨rfl, more⟩
        rw [beq_eq_false_iff_ne.mpr visible, Bool.false_or] at more
        exact ⟨rfl, more⟩
      · rintro ⟨rfl, more⟩
        rw [more, Bool.or_true]
        exact ⟨rfl, rfl⟩

/-- What is copied of a segment is long enough for the comparisons. -/
theorem strncmp_copied (segment start : List UInt8) (text : 0 ∉ start) (short : start.length ≤ 95) :
    strncmp (segment.take 95) start start.length = true ↔ start <+: segment := by
  rw [strncmp_iff _ _ text, List.prefix_take_iff]
  exact ⟨And.left, fun isPrefix => ⟨isPrefix, short⟩⟩

theorem httpRequestIsApi_iff (segment : List UInt8) : httpRequestIsApi (some segment) = true ↔ IsApi segment := by
  have space := strncmp_copied segment (ascii "GET /api ") (by decide +kernel) (by decide +kernel)
  have query := strncmp_copied segment (ascii "GET /api?") (by decide +kernel) (by decide +kernel)
  have envSpace := strncmp_copied segment (ascii "GET /api/env ") (by decide +kernel) (by decide +kernel)
  have envQuery := strncmp_copied segment (ascii "GET /api/env?") (by decide +kernel) (by decide +kernel)
  change strncmp _ _ 9 = true ↔ _ at space
  change strncmp _ _ 9 = true ↔ _ at query
  change strncmp _ _ 13 = true ↔ _ at envSpace
  change strncmp _ _ 13 = true ↔ _ at envQuery
  simp only [httpRequestIsApi, Bool.or_eq_true, space, query, envSpace, envQuery, IsApi, apiStarts, List.mem_cons,
    List.not_mem_nil, or_false, exists_eq_or_imp, exists_eq_left, or_assoc]

end Classify

section Responses

theorem length_fixed_float (x : FiniteFloat) : (fixed 2 x.val).length ≤ 43 := by
  have bound : |x.val| + 1 < (10 : ℚ) ^ 39 := by
    have finite := x.property
    norm_num at finite ⊢
    linarith
  exact length_fixed_le 2 (by decide) bound

/-- Both bodies fit the body buffer … -/
theorem makeJsonBody_eq (env : EnvironmentData) : makeJsonBody HTTP_BODY_SIZE env = jsonText env := by
  have temperature := length_fixed_float env.temperature
  have humidity := length_fixed_float env.humidity
  have pressure := length_fixed_float env.pressure
  have names : (ascii "\x7b\"valid\":true,\"temperature\":").length = 28 ∧ (ascii ",\"humidity\":").length = 12 ∧
      (ascii ",\"pressure\":").length = 12 ∧ (ascii "\x7d").length = 1 ∧
      (ascii "\x7b\"valid\":false\x7d").length = 15 := by
    decide +kernel
  apply List.take_of_length_le
  rw [jsonText]
  split
  · simp only [List.length_append, names, HTTP_BODY_SIZE]
    omega
  · rw [names.2.2.2.2]
    decide

theorem length_htmlText : htmlText.length = 1104 := by decide +kernel

theorem makeHtmlBody_eq : makeHtmlBody HTTP_BODY_SIZE = htmlText := by
  apply List.take_of_length_le
  rw [length_htmlText]
  decide

/-- … and both responses the response buffer. -/
theorem makeHttpResponse_eq {contentType body : List UInt8} (short : contentType.length ≤ 32) (fits : body.length < 2048) :
    makeHttpResponse HTTP_RESPONSE_SIZE contentType body = (responseText contentType body, true) := by
  have digits : (decimal body.length).length ≤ 4 := length_decimal_le (by decide) (by omega)
  have names : (ascii "HTTP/1.1 200 OK\r\nContent-Type: ").length = 31 ∧
      (ascii "\r\nConnection: close\r\nCache-Control: no-store\r\nContent-Length: ").length = 62 ∧
      (ascii "\r\n\r\n").length = 4 := by
    decide +kernel
  have room : (responseText contentType body).length < HTTP_RESPONSE_SIZE := by
    simp only [responseText, List.length_append, names, HTTP_RESPONSE_SIZE]
    omega
  rw [makeHttpResponse, if_neg (by omega), snprintf, List.take_of_length_le (by omega)]

def IsJson (response : List UInt8) : Prop := ∃ env, response = responseText JSON_TYPE (jsonText env)

def IsHtml (response : List UInt8) : Prop := response = responseText HTML_TYPE htmlText

theorem IsJson.not_html {response : List UInt8} (json : IsJson response) : ¬ IsHtml response := by
  obtain ⟨env, rfl⟩ := json
  intro html
  have types : JSON_TYPE.head? = some 'a'.toUInt8 ∧ HTML_TYPE.head? = some 't'.toUInt8 := by decide +kernel
  simp only [IsHtml, responseText, List.append_assoc, List.append_cancel_left_eq] at html
  have heads := congrArg List.head? html
  simp only [List.head?_append, types, Option.some_or] at heads
  exact absurd (Option.some.inj heads) (by decide)

def answer (around : Surroundings) (segment : List UInt8) : List UInt8 :=
  if httpRequestIsApi (some segment) then
    (makeHttpResponse HTTP_RESPONSE_SIZE JSON_TYPE (makeJsonBody HTTP_BODY_SIZE around.env)).1
  else (makeHttpResponse HTTP_RESPONSE_SIZE HTML_TYPE (makeHtmlBody HTTP_BODY_SIZE)).1

/-- The response that a request asks for. -/
def Expected (request response : List UInt8) : Prop :=
  (IsApi request → IsJson response) ∧ (¬ IsApi request → IsHtml response)

theorem expected_answer (around : Surroundings) (segment : List UInt8) : Expected segment (answer around segment) := by
  have types : JSON_TYPE.length = 31 ∧ HTML_TYPE.length = 24 := by decide +kernel
  have whole : (jsonText around.env).length < 2048 := by
    rw [← makeJsonBody_eq, makeJsonBody, snprintf, List.length_take, HTTP_BODY_SIZE]
    omega
  constructor
  · intro api
    refine ⟨around.env, ?_⟩
    rw [answer, if_pos ((httpRequestIsApi_iff segment).mpr api), makeJsonBody_eq,
      makeHttpResponse_eq (by rw [types.1]; decide) whole]
  · intro other
    rw [IsHtml, answer, if_neg (mt (httpRequestIsApi_iff segment).mp other), makeHtmlBody_eq,
      makeHttpResponse_eq (by rw [types.2]; decide) (by rw [length_htmlText]; decide)]

/-- The first segment is answered as the whole request asks exactly when it holds the beginning that asks for the JSON. -/
theorem expected_first (around : Surroundings) (front back : List UInt8) :
    Expected (front ++ back) (answer around front) ↔ (IsApi (front ++ back) → IsApi front) := by
  obtain ⟨json, html⟩ := expected_answer around front
  constructor
  · rintro ⟨wanted, _⟩ whole
    by_contra missed
    exact (wanted whole).not_html (html missed)
  · intro kept
    exact ⟨fun whole => json (kept whole), fun other => html fun api => other (api.append back)⟩

end Responses

/-- The ways a callback with a segment ends: without a response, with one and an aborted connection, or with one and a
closed connection. -/
theorem httpRecvCallback_cases (around : Surroundings) (segment : List UInt8) :
    (around.write ≠ ERR_OK ∧ httpRecvCallback around (some segment) ERR_OK =
      ([.recved segment.length, .write (answer around segment) around.write, .abort], ERR_ABRT)) ∨
    (around.write = ERR_OK ∧ around.close ≠ ERR_OK ∧ httpRecvCallback around (some segment) ERR_OK =
      ([.recved segment.length, .write (answer around segment) ERR_OK, .output, .close around.close, .abort], ERR_ABRT)) ∨
    (around.write = ERR_OK ∧ around.close = ERR_OK ∧ httpRecvCallback around (some segment) ERR_OK =
      ([.recved segment.length, .write (answer around segment) ERR_OK, .output, .close ERR_OK], ERR_OK)) := by
  by_cases written : around.write = ERR_OK
  · by_cases closed : around.close = ERR_OK
    · exact .inr (.inr ⟨written, closed, by simp [httpRecvCallback, answer, written, closed]⟩)
    · exact .inr (.inl ⟨written, closed, by simp [httpRecvCallback, answer, written, closed]⟩)
  · exact .inl ⟨written, by simp [httpRecvCallback, answer, written]⟩

namespace Connection
variable {late : Bool}

theorem deliver_done {c : Connection} (done : ¬ c.receiving = true) (d : Delivery) : c.deliver late d = c := by
  rw [deliver, if_neg done]

theorem responses_done {c : Connection} (done : ¬ c.receiving = true) (deliveries : List Delivery) :
    (deliveries.foldl (deliver late) c).responses = c.responses := by
  induction deliveries with
  | nil => rfl
  | cons d rest ih => rw [List.foldl_cons, deliver_done done, ih]

variable (late)

/-- One turn of the callback: a response goes out when `tcp_write` takes it … -/
theorem responses_deliver (c : Connection) (d : Delivery) (receiving : c.receiving = true) :
    (c.deliver late d).responses =
      c.responses ++ if d.around.write = ERR_OK then [answer d.around d.segment] else [] := by
  rw [deliver, if_pos receiving, responses, responses, List.filterMap_append]
  rcases httpRecvCallback_cases d.around d.segment with ⟨refused, turn⟩ | ⟨written, _, turn⟩ | ⟨written, _, turn⟩
  · rw [turn, if_neg refused]
    simp [refused]
  · rw [turn, if_pos written]
    rfl
  · rw [turn, if_pos written]
    rfl

/-- … and another turn follows when `tcp_close` works too and lwIP delivers to a closed connection. -/
theorem receiving_deliver (c : Connection) (d : Delivery) (receiving : c.receiving = true) :
    (c.deliver late d).receiving = true ↔ d.around.write = ERR_OK ∧ d.around.close = ERR_OK ∧ late = true := by
  have differ : ERR_OK ≠ ERR_ABRT := by decide
  rw [deliver, if_pos receiving]
  rcases httpRecvCallback_cases d.around d.segment with ⟨refused, turn⟩ | ⟨_, refused, turn⟩ | ⟨written, closed, turn⟩
  · simp [turn, refused]
  · simp [turn, refused]
  · simp [turn, written, closed, differ]

theorem responses_foldl (c : Connection) (deliveries : List Delivery) :
    c.responses <+: (deliveries.foldl (deliver late) c).responses := by
  induction deliveries generalizing c with
  | nil => exact List.prefix_refl _
  | cons d rest ih =>
    have step : c.responses <+: (c.deliver late d).responses := by
      by_cases receiving : c.receiving = true
      · rw [responses_deliver late c d receiving]
        exact List.prefix_append _ _
      · rw [deliver_done receiving]
    exact step.trans (ih _)

/-- Behind the first response there is no other when the next segment brings the connection down. -/
theorem responses_second {c : Connection} (receiving : c.receiving = true) {first : List UInt8} (sent : c.responses = [first])
    (rest : List Delivery) (response : List UInt8) :
    (rest.foldl (deliver late) c).responses = [response] ↔
      response = first ∧ ∀ second ∈ rest.head?, second.around.write ≠ ERR_OK := by
  cases rest with
  | nil => simp [sent, eq_comm]
  | cons second later =>
    have turn := responses_deliver late c second receiving
    rw [sent] at turn
    rw [List.foldl_cons]
    by_cases written : second.around.write = ERR_OK
    · rw [if_pos written] at turn
      have longer := (responses_foldl late (c.deliver late second) later).length_le
      rw [turn] at longer
      constructor
      · intro one
        rw [one] at longer
        exact absurd longer (by simp)
      · rintro ⟨_, refused⟩
        exact absurd written (refused second rfl)
    · rw [if_neg written, List.append_nil] at turn
      have done : ¬ (c.deliver late second).receiving = true := fun more =>
        written ((receiving_deliver late c second receiving).mp more).1
      rw [responses_done done, turn]
      simp [written, eq_comm]

/-- Exactly one response goes out when lwIP takes the first, and then delivers nothing more or takes no other. -/
theorem responses_serve (first : Delivery) (rest : List Delivery) (response : List UInt8) :
    (serve late (first :: rest)).responses = [response] ↔
      response = answer first.around first.segment ∧ first.around.write = ERR_OK ∧
        (first.around.close = ERR_OK → late = true → ∀ second ∈ rest.head?, second.around.write ≠ ERR_OK) := by
  have turn := responses_deliver late ⟨[], true⟩ first rfl
  have more := receiving_deliver late ⟨[], true⟩ first rfl
  rw [show responses ⟨[], true⟩ = [] from rfl, List.nil_append] at turn
  rw [serve, List.foldl_cons]
  by_cases written : first.around.write = ERR_OK
  · rw [if_pos written] at turn
    by_cases continued : first.around.close = ERR_OK ∧ late = true
    · rw [responses_second late (more.mpr ⟨written, continued⟩) turn]
      simp [written, continued]
    · rw [responses_done (fun received => continued (more.mp received).2), turn]
      have vacuous : first.around.close = ERR_OK → late = true → ∀ second ∈ rest.head?, second.around.write ≠ ERR_OK :=
        fun closed isLate => absurd ⟨closed, isLate⟩ continued
      constructor
      · intro one
        exact ⟨(List.singleton_inj.mp one).symm, written, vacuous⟩
      · rintro ⟨same, _⟩
        rw [same]
  · rw [if_neg written] at turn
    rw [responses_done (fun received => written (more.mp received).1), turn]
    simp [written]

end Connection

def request (deliveries : List Delivery) : List UInt8 := deliveries.flatMap Delivery.segment

theorem request_cons (first : Delivery) (rest : List Delivery) :
    request (first :: rest) = first.segment ++ request rest := List.flatMap_cons

/-- One response goes out, and it is the one that the request asks for. -/
def Answered (late : Bool) (deliveries : List Delivery) : Prop :=
  ∃ response, (Connection.serve late deliveries).responses = [response] ∧ Expected (request deliveries) response

theorem answered_first (late : Bool) (first : Delivery) (rest : List Delivery) :
    Answered late (first :: rest) ↔
      (IsApi (request (first :: rest)) → IsApi first.segment) ∧ first.around.write = ERR_OK ∧
        (first.around.close = ERR_OK → late = true → ∀ second ∈ rest.head?, second.around.write ≠ ERR_OK) := by
  have kind := expected_first first.around first.segment (request rest)
  rw [← request_cons] at kind
  constructor
  · rintro ⟨response, one, expected⟩
    obtain ⟨same, sent⟩ := (Connection.responses_serve late first rest response).mp one
    rw [same] at expected
    exact ⟨kind.mp expected, sent⟩
  · rintro ⟨kept, sent⟩
    exact ⟨answer first.around first.segment, (Connection.responses_serve late first rest _).mpr ⟨rfl, sent⟩, kind.mpr kept⟩

/-- lwIP takes the first response, a request for the JSON shows in its first segment, and no response follows: lwIP
refuses to close, or delivers nothing behind a close, or refuses what is written on the second segment, or there is no
second segment. -/
structure Settles (late : Bool) (first : Delivery) (rest : List Delivery) : Prop where
  written : first.around.write = ERR_OK
  kept : IsApi (request (first :: rest)) → IsApi first.segment
  last : first.around.close = ERR_OK → late = true → ∀ second ∈ rest.head?, second.around.write ≠ ERR_OK

/-- Whatever the bytes and however they are cut, a request gets one response, and the right one, exactly when its first
segment shows what it asks for and lwIP lets no second response out. -/
theorem answered_iff (late : Bool) (first : Delivery) (rest : List Delivery) :
    Answered late (first :: rest) ↔ Settles late first rest := by
  rw [answered_first]
  constructor
  · rintro ⟨kept, written, last⟩
    exact ⟨written, kept, last⟩
  · intro settles
    exact ⟨settles.kept, settles.written, settles.last⟩

/-- The requests that the server answers: those for the JSON, and every other `GET` up to the empty line. -/
def IsRequest (bytes : List UInt8) : Prop := IsApi bytes ∨ ascii "GET " <+: bytes ∧ ascii "\r\n\r\n" <:+ bytes

/-- No sensor values yet, and an lwIP that does all it is asked. -/
def willing : Surroundings := ⟨⟨⟨0, by norm_num⟩, ⟨0, by norm_num⟩, ⟨0, by norm_num⟩, false⟩, ERR_OK, ERR_OK⟩

/-- A request for the JSON, cut behind its method, gets a page first. -/
theorem split_request_missed :
    let first : Delivery := ⟨ascii "GET ", by decide +kernel, willing⟩
    let second : Delivery := ⟨ascii "/api HTTP/1.1\r\n\r\n", by decide +kernel, willing⟩
    IsRequest (request [first, second]) ∧ ¬ Answered true [first, second] := by
  intro first second
  have api : IsApi (request [first, second]) := by decide +kernel
  have hidden : ¬ IsApi first.segment := by decide +kernel
  refine ⟨.inl api, ?_⟩
  intro answered
  exact hidden (((answered_first true first [second]).mp answered).1 api)

end PicoWLogger.HttpServer
