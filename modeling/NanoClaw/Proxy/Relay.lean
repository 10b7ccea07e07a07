import NanoClaw.Library.PyExc
import NanoClaw.Proxy.CredentialProxy
import Mathlib.Data.Bool.AllAny

/-! What a client of the credential proxy gets to see of the upstream's response, and how many status
lines are written for its request. -/
namespace NanoClaw.CredentialProxy
open PyText

/-- A status line with the headers below it. -/
structure Head where
  status : Nat
  headers : List (String × String)
  deriving DecidableEq, Repr

/-- A response, after the redirects that `urlopen` follows. -/
structure Response extends Head where
  body : List UInt8
  deriving DecidableEq, Repr

/-- What becomes of a request that is sent: it fails without a response, reading the body of the
response raises, or it is answered. -/
inductive Outcome where
  | fails (e : PyExc)
  | breaks (head : Head) (e : PyExc)
  | responds (response : Response)
  deriving DecidableEq, Repr

/-- `_MAX_UPSTREAM_RESPONSE_BYTES`. -/
def maxUpstreamResponseBytes : Nat := 10 * 1024 * 1024

/-- A part of what is handed to the client's connection: a head taken from the upstream's, a head of
the proxy's own, or a body. -/
inductive Part where
  | relayed (head : Head)
  | made (head : Head)
  | body (bytes : List UInt8)
  deriving DecidableEq, Repr

def Part.isHead : Part → Bool
  | relayed _ | made _ => true
  | body _ => false

/-- The client's side: the version its request line names, the two headers of every response, and
which writes to the connection raise an `OSError`. -/
structure Client where
  requestVersion : String
  server : String
  date : String
  writeFails : Nat → Bool

/-- The handler's connection: the buffered heads, the number of writes, and the parts handed over. -/
structure Conn where
  headersBuffer : List Part
  writes : Nat
  handed : List Part
  deriving DecidableEq, Repr

def Conn.fresh : Conn := ⟨[],0,[]⟩

/-- Of the statuses `urlopen` returns a response for; for others it raises an `HTTPError`. -/
def isSuccess (status : Nat) : Bool := 200 ≤ status && status < 300

def urlopen : Outcome → Except PyExc (Head × Except PyExc (List UInt8))
  | .fails e => .error e
  | .breaks head e => if isSuccess head.status then .ok (head,.error e) else .error .osError
  | .responds r => if isSuccess r.status then .ok (r.toHead,.ok r.body) else .error .osError

/-- Whether the length that a response declares is over the limit, or no number. -/
def declaresTooLarge (headers : List (String × String)) : Except PyExc Bool :=
  match getHeader headers "Content-Length" with
  | none => .ok false
  | some text =>
    match int? text.toList with
    | none => .error .valueError
    | some n => .ok (maxUpstreamResponseBytes < n)

/-- A header that belongs to the upstream's connection. -/
def isHopHeader (name : String) : Bool := name.toLower ∈ ["connection","transfer-encoding"]

section Handler
variable (client : Client)

/-- A write to the connection. What a write that raises has passed on is not known. -/
def Conn.write (conn : Conn) (parts : List Part) : Option PyExc × Conn :=
  (if client.writeFails conn.writes then some .osError else none,
    { conn with writes := conn.writes + 1, handed := conn.handed ++ parts })

/-- `send_response` with its headers, `end_headers` and the body. A response to HTTP/0.9 has no head.
The buffer is emptied behind the write. -/
def answer (head : Part) (body : Option (List UInt8)) (conn : Conn) : Option PyExc × Conn :=
  let writeBody (conn : Conn) :=
    match body with
    | none => (none,conn)
    | some bytes => conn.write client [.body bytes]
  if client.requestVersion = "HTTP/0.9" then writeBody conn
  else
    let conn := { conn with headersBuffer := conn.headersBuffer ++ [head] }
    match conn.write client conn.headersBuffer with
    | (some e, conn) => (some e,conn)
    | (none, conn) => writeBody { conn with headersBuffer := [] }

/-- `send_response` adds two headers. -/
def sendResponse (status : Nat) (headers : List (String × String)) : Head :=
  ⟨status,("Server",client.server) :: ("Date",client.date) :: headers⟩

/-- The head of a 502 of the proxy's own. -/
def gatewayHead (text : String) : Head :=
  sendResponse client 502 [("Content-Type","text/plain"),("Content-Length",toString text.toUTF8.size)]

def gatewayError (text : String) (conn : Conn) : Option PyExc × Conn :=
  answer client (.made (gatewayHead client text)) (some text.toUTF8.toList) conn

/-- The block under `urlopen`. -/
def relay (head : Head) (read : Except PyExc (List UInt8)) (conn : Conn) : Option PyExc × Conn :=
  match declaresTooLarge head.headers with
  | .error e => (some e,conn)
  | .ok true => gatewayError client "Upstream response too large" conn
  | .ok false =>
    match read.map (List.take (maxUpstreamResponseBytes + 1)) with
    | .error e => (some e,conn)
    | .ok responseBody =>
      if responseBody.length > maxUpstreamResponseBytes then
        gatewayError client "Upstream response too large" conn
      else
        answer client (.relayed (sendResponse client head.status
          (head.headers.filter (fun kv => !isHopHeader kv.1)))) (some responseBody) conn

/-- The block of the `try` statement. -/
def tried (outcome : Outcome) : Option PyExc × Conn :=
  match urlopen outcome with
  | .error e => (some e,Conn.fresh)
  | .ok (head, read) => relay client head read Conn.fresh

/-- The `try` statement: the `except` clause also has what the writes of the block raise. -/
def forward (outcome : Outcome) : Option PyExc × Conn :=
  match tried client outcome with
  | (some .osError, conn) => gatewayError client "Bad Gateway" conn
  | ended => ended

/-- `ProxyHandler._proxy`. Reading the client's body and building the request may raise too, outside of
the `try` statement. -/
def proxy (s : Settings) (r : Incoming) (upstream : UpstreamRequest → Except PyExc Outcome) :
    Option PyExc × Conn :=
  match (proxyRequest s r).map upstream with
  | none => answer client (.made (sendResponse client 400 [])) none Conn.fresh
  | some (.error e) => (some e,Conn.fresh)
  | some (.ok outcome) => forward client outcome

/-- Neither of the two writes of a response raises. -/
def Client.Listens : Prop := client.writeFails 0 = false ∧ client.writeFails 1 = false

/-- Where one status line comes to the client, and the right one: what becomes of its request. -/
def Relayable : Option (Except PyExc Outcome) → Prop
  | none => True
  | some (.error _) => False
  | some (.ok (.fails e)) => e = .osError
  | some (.ok (.breaks head e)) =>
    isSuccess head.status = true →
      declaresTooLarge head.headers = .ok true ∧ client.Listens ∨
        declaresTooLarge head.headers = .ok false ∧ e = .osError
  | some (.ok (.responds r)) =>
    if r.body.length ≤ maxUpstreamResponseBytes then
      isSuccess r.status = true ∧ declaresTooLarge r.headers = .ok false ∧ client.Listens
    else
      isSuccess r.status = true →
        (∃ large, declaresTooLarge r.headers = .ok large) ∧ client.Listens

end Handler

/-- A transport failure, or a body over the limit. -/
def Excuses : Outcome → Prop
  | .fails _ | .breaks _ _ => True
  | .responds r => maxUpstreamResponseBytes < r.body.length

/-- What is handed to the client's connection is one head: the upstream's with its body and without the
headers of its connection, where there is a response within the limit. A 502 of the proxy's own has an
excuse. -/
structure Relays (requested : Option (Except PyExc Outcome)) (handed : List Part) : Prop where
  relayed : ∀ r, requested = some (.ok (.responds r)) → r.body.length ≤ maxUpstreamResponseBytes →
    ∃ head, handed = [.relayed head,.body r.body] ∧ head.status = r.status ∧
      (r.headers.filter (fun kv => !isHopHeader kv.1)).Sublist head.headers ∧
      ∀ kv ∈ head.headers, isHopHeader kv.1 = false
  excused : ∀ head, .made head ∈ handed → head.status = 502 →
    ∃ outcome, requested = some (.ok outcome) ∧ Excuses outcome
  oneStatusLine : handed.countP Part.isHead = 1

section Answers
variable {client : Client} {head : Part} {bytes : List UInt8}

@[simp] theorem Part.isHead_body (bytes : List UInt8) : (Part.body bytes).isHead = false := rfl

/-- Every response that is written adds a head, and the heads that a failed write has left behind. -/
theorem countP_answer (hversion : client.requestVersion ≠ "HTTP/0.9") (hhead : head.isHead = true)
    (body : Option (List UInt8)) (conn : Conn) :
    (answer client head body conn).2.handed.countP Part.isHead =
      conn.handed.countP Part.isHead + conn.headersBuffer.countP Part.isHead + 1 := by
  rw [answer, if_neg hversion]
  simp only [Conn.write]
  cases client.writeFails conn.writes with
  | true => simp [hhead, Nat.add_assoc]
  | false => cases body <;> simp [hhead, Nat.add_assoc]

theorem mem_answer (hversion : client.requestVersion ≠ "HTTP/0.9") (body : Option (List UInt8))
    (conn : Conn) : head ∈ (answer client head body conn).2.handed := by
  rw [answer, if_neg hversion]
  simp only [Conn.write]
  cases client.writeFails conn.writes with
  | true => simp
  | false => cases body <;> simp

theorem answer_bare (hversion : client.requestVersion ≠ "HTTP/0.9") :
    (answer client head none Conn.fresh).2.handed = [head] := by
  rw [answer, if_neg hversion]
  by_cases hwrite : client.writeFails 0 = true
  · simp [Conn.write, Conn.fresh, hwrite]
  · simp [Conn.write, Conn.fresh, hwrite]

/-- A response to HTTP/0.9 has no head. -/
theorem countP_answer_old (hversion : client.requestVersion = "HTTP/0.9") (body : Option (List UInt8))
    (conn : Conn) :
    (answer client head body conn).2.handed.countP Part.isHead = conn.handed.countP Part.isHead := by
  rw [answer, if_pos hversion]
  cases body <;> simp [Conn.write]

theorem answer_listens (hversion : client.requestVersion ≠ "HTTP/0.9") (h : client.Listens) :
    answer client head (some bytes) Conn.fresh = (none,⟨[],2,[head,.body bytes]⟩) := by
  rw [answer, if_neg hversion]
  simp [Conn.write, Conn.fresh, h.1, h.2]

theorem answer_fails (hversion : client.requestVersion ≠ "HTTP/0.9") (h : ¬client.Listens) :
    (answer client head (some bytes) Conn.fresh).1 = some .osError := by
  rw [answer, if_neg hversion]
  by_cases hfirst : client.writeFails 0 = true
  · simp [Conn.write, Conn.fresh, hfirst]
  · have hsecond : client.writeFails 1 = true := by
      by_contra hsecond
      exact h ⟨Bool.eq_false_iff.mpr hfirst,Bool.eq_false_iff.mpr hsecond⟩
    simp [Conn.write, Conn.fresh, hfirst, hsecond]

theorem tried_breaks {head : Head} {e : PyExc} (h : isSuccess head.status = true) :
    tried client (.breaks head e) = relay client head (.error e) Conn.fresh := by
  rw [tried, urlopen, h]
  rfl

theorem tried_responds {r : Response} (h : isSuccess r.status = true) :
    tried client (.responds r) = relay client r.toHead (.ok r.body) Conn.fresh := by
  rw [tried, urlopen, h]
  rfl

/-- The upstream's own error status raises before anything is read. -/
theorem tried_refused {r : Response} (h : isSuccess r.status = false) :
    tried client (.responds r) = (some .osError,Conn.fresh) := by
  rw [tried, urlopen, h]
  rfl

/-- Where nothing is written before the exception, there is one head if it is caught, and none else. -/
theorem countP_forward_of_raises (hversion : client.requestVersion ≠ "HTTP/0.9") {outcome : Outcome}
    {e : PyExc} (h : tried client outcome = (some e,Conn.fresh)) :
    (forward client outcome).2.handed.countP Part.isHead = 1 ↔ e = .osError := by
  rw [forward, h]
  cases e with
  | osError =>
    refine iff_of_true ?_ rfl
    dsimp only
    rw [gatewayError, countP_answer hversion rfl]
    rfl
  | _ => simp [Conn.fresh]

theorem forward_of_listens (hversion : client.requestVersion ≠ "HTTP/0.9") {outcome : Outcome}
    (h : tried client outcome = answer client head (some bytes) Conn.fresh) (hlistens : client.Listens) :
    (forward client outcome).2.handed = [head,.body bytes] := by
  rw [forward, h, answer_listens hversion hlistens]

/-- An answer whose write raises gets a second head. -/
theorem countP_forward_of_fails (hversion : client.requestVersion ≠ "HTTP/0.9") {outcome : Outcome}
    (hhead : head.isHead = true)
    (h : tried client outcome = answer client head (some bytes) Conn.fresh) (hfails : ¬client.Listens) :
    (forward client outcome).2.handed.countP Part.isHead ≠ 1 := by
  have hone := countP_answer hversion hhead (some bytes) Conn.fresh
  have hexc := @answer_fails client head bytes hversion hfails
  rw [forward, h]
  rcases hanswer : answer client head (some bytes) Conn.fresh with ⟨exc,conn⟩
  rw [hanswer] at hone hexc
  dsimp only at hone hexc
  rw [hexc]
  dsimp only
  rw [gatewayError, countP_answer hversion rfl, hone]
  omega

theorem countP_forward_old (hversion : client.requestVersion = "HTTP/0.9") (outcome : Outcome) :
    (forward client outcome).2.handed.countP Part.isHead = 0 := by
  have htried : (tried client outcome).2.handed.countP Part.isHead = 0 := by
    rw [tried]
    split
    · rfl
    · rw [relay]
      split
      · rfl
      · exact countP_answer_old hversion _ _
      · split
        · rfl
        · split
          · exact countP_answer_old hversion _ _
          · exact countP_answer_old hversion _ _
  rw [forward]
  split
  · rename_i conn hconn
    rw [hconn] at htried
    exact (countP_answer_old hversion _ _).trans htried
  · exact htried

end Answers

section Outcomes
variable {client : Client} (hversion : client.requestVersion ≠ "HTTP/0.9")

theorem declaresTooLarge_error {headers : List (String × String)} {e : PyExc}
    (h : declaresTooLarge headers = .error e) : e = .valueError := by
  rw [declaresTooLarge] at h
  split at h
  · cases h
  · split at h <;> cases h
    rfl

private theorem relayedHead_plain (status : Nat) (headers : List (String × String)) :
    ∀ kv ∈ (sendResponse client status (headers.filter (fun kv => !isHopHeader kv.1))).headers,
      isHopHeader kv.1 = false := by
  have hserver : isHopHeader "Server" = false := by decide +kernel
  have hdate : isHopHeader "Date" = false := by decide +kernel
  rw [sendResponse, List.forall_mem_cons, List.forall_mem_cons]
  refine ⟨hserver,hdate,fun kv hkv => ?_⟩
  have hkept := (List.mem_filter.mp hkv).2
  rwa [Bool.not_eq_true'] at hkept

/-- With an excuse only the number of heads counts. -/
theorem relays_of_excuses {outcome : Outcome} (h : Excuses outcome) {handed : List Part} :
    Relays (some (.ok outcome)) handed ↔ handed.countP Part.isHead = 1 := by
  refine ⟨fun hrelays => hrelays.oneStatusLine,fun hone => ⟨?_,fun _ _ _ => ⟨outcome,rfl,h⟩,hone⟩⟩
  intro r hr hsmall
  cases hr
  exact absurd hsmall (Nat.not_le.mpr h)

/-- A 502 has no excuse where the response is within the limit. -/
theorem not_relays_of_made {r : Response} (hsmall : r.body.length ≤ maxUpstreamResponseBytes)
    {text : String} {handed : List Part} (hmem : .made (gatewayHead client text) ∈ handed) :
    ¬Relays (some (.ok (.responds r))) handed := by
  intro hrelays
  obtain ⟨outcome,houtcome,hexcuse⟩ := hrelays.excused _ hmem rfl
  cases houtcome
  exact Nat.not_lt.mpr hsmall hexcuse

/-- The response without the headers of its connection is what the client is to get. -/
theorem relays_relayed (r : Response) :
    Relays (some (.ok (.responds r)))
      [.relayed (sendResponse client r.status (r.headers.filter (fun kv => !isHopHeader kv.1))),
        .body r.body] := by
  refine ⟨?_,?_,rfl⟩
  · intro r' hr' _
    cases hr'
    refine ⟨_,rfl,rfl,?_,?_⟩
    · exact ((List.Sublist.refl _).cons _).cons _
    · exact relayedHead_plain r.status r.headers
  · intro head hhead
    simp at hhead

include hversion

/-- An answer of the proxy's own inside the block. -/
theorem countP_forward_answer {outcome : Outcome} {head : Part} {bytes : List UInt8}
    (hhead : head.isHead = true) (h : tried client outcome = answer client head (some bytes) Conn.fresh) :
    (forward client outcome).2.handed.countP Part.isHead = 1 ↔ client.Listens := by
  constructor
  · intro hone
    by_contra hfails
    exact countP_forward_of_fails hversion hhead h hfails hone
  · intro hlistens
    rw [forward_of_listens hversion h hlistens]
    simp [hhead]

theorem relays_breaks_iff (head : Head) (e : PyExc) :
    Relays (some (.ok (.breaks head e))) (forward client (.breaks head e)).2.handed ↔
      Relayable client (some (.ok (.breaks head e))) := by
  have hexcuse : Excuses (.breaks head e) := trivial
  rw [relays_of_excuses hexcuse, Relayable]
  cases hsuccess : isSuccess head.status with
  | false =>
    have htried : tried client (.breaks head e) = (some .osError,Conn.fresh) := by
      rw [tried, urlopen, hsuccess]
      rfl
    rw [countP_forward_of_raises hversion htried]
    simp
  | true =>
    have hopen := @tried_breaks client head e hsuccess
    rw [relay] at hopen
    cases hlarge : declaresTooLarge head.headers with
    | error e' =>
      rw [hlarge] at hopen
      rw [countP_forward_of_raises hversion hopen, declaresTooLarge_error hlarge]
      simp
    | ok large =>
      rw [hlarge] at hopen
      cases large with
      | true =>
        rw [countP_forward_answer hversion rfl hopen]
        simp
      | false =>
        rw [countP_forward_of_raises hversion hopen]
        simp

theorem relays_fails_iff (e : PyExc) :
    Relays (some (.ok (.fails e))) (forward client (.fails e)).2.handed ↔
      Relayable client (some (.ok (.fails e))) := by
  have hexcuse : Excuses (.fails e) := trivial
  rw [relays_of_excuses hexcuse, Relayable]
  exact countP_forward_of_raises hversion rfl

/-- A response over the limit is refused, one that `urlopen` raises for is not read. -/
theorem relays_large_iff (r : Response) (hlarge : maxUpstreamResponseBytes < r.body.length) :
    Relays (some (.ok (.responds r))) (forward client (.responds r)).2.handed ↔
      Relayable client (some (.ok (.responds r))) := by
  rw [relays_of_excuses (show Excuses (.responds r) from hlarge), Relayable,
    if_neg (Nat.not_le.mpr hlarge)]
  cases hsuccess : isSuccess r.status with
  | false =>
    rw [countP_forward_of_raises hversion (tried_refused hsuccess)]
    simp
  | true =>
    have hopen := @tried_responds client r hsuccess
    have hread : maxUpstreamResponseBytes < (r.body.take (maxUpstreamResponseBytes + 1)).length := by
      rw [List.length_take]
      omega
    rw [relay] at hopen
    cases hdeclared : declaresTooLarge r.headers with
    | error e =>
      rw [hdeclared] at hopen
      rw [countP_forward_of_raises hversion hopen, declaresTooLarge_error hdeclared]
      simp
    | ok declared =>
      rw [hdeclared] at hopen
      have hanswer : tried client (.responds r) =
          gatewayError client "Upstream response too large" Conn.fresh := by
        cases declared with
        | true => exact hopen
        | false =>
          rw [hopen]
          exact if_pos hread
      rw [countP_forward_answer hversion rfl hanswer]
      simp

/-- A response within the limit comes through where nothing raises. -/
theorem relays_small_iff (r : Response) (hsmall : r.body.length ≤ maxUpstreamResponseBytes) :
    Relays (some (.ok (.responds r))) (forward client (.responds r)).2.handed ↔
      Relayable client (some (.ok (.responds r))) := by
  rw [Relayable, if_pos hsmall]
  cases hsuccess : isSuccess r.status with
  | false =>
    have hmem : .made (gatewayHead client "Bad Gateway") ∈
        (forward client (.responds r)).2.handed := by
      rw [forward, tried_refused hsuccess]
      exact mem_answer hversion _ _
    refine iff_of_false (not_relays_of_made hsmall hmem) ?_
    rintro ⟨h,_⟩
    cases h
  | true =>
    have hopen := @tried_responds client r hsuccess
    rw [relay] at hopen
    cases hdeclared : declaresTooLarge r.headers with
    | error e =>
      rw [hdeclared] at hopen
      refine iff_of_false (fun hrelays => ?_) (by simp)
      have hraised := (countP_forward_of_raises hversion hopen).mp hrelays.oneStatusLine
      rw [declaresTooLarge_error hdeclared] at hraised
      cases hraised
    | ok declared =>
      rw [hdeclared] at hopen
      cases declared with
      | true =>
        refine iff_of_false (fun hrelays => ?_) (by simp)
        have hlistens := (countP_forward_answer hversion rfl hopen).mp hrelays.oneStatusLine
        have hhanded := forward_of_listens hversion hopen hlistens
        have hmem : .made (gatewayHead client "Upstream response too large") ∈
            (forward client (.responds r)).2.handed := by
          rw [hhanded]
          exact List.mem_cons_self
        exact not_relays_of_made hsmall hmem hrelays
      | false =>
        have hread : r.body.take (maxUpstreamResponseBytes + 1) = r.body :=
          List.take_of_length_le (hsmall.trans (Nat.le_succ _))
        have hanswer : tried client (.responds r) =
            answer client (.relayed (sendResponse client r.status
              (r.headers.filter (fun kv => !isHopHeader kv.1)))) (some r.body) Conn.fresh := by
          rw [hopen]
          simp only [Except.map, hread]
          exact if_neg (Nat.not_lt.mpr hsmall)
        constructor
        · intro hrelays
          have hone := hrelays.oneStatusLine
          exact ⟨rfl,rfl,(countP_forward_answer hversion rfl hanswer).mp hone⟩
        · rintro ⟨_,_,hlistens⟩
          rw [forward_of_listens hversion hanswer hlistens]
          exact relays_relayed r

end Outcomes

/-- A request gets one status line, and the upstream's response unless there is an excuse, exactly when
its version has status lines and what becomes of it is relayable. -/
theorem relays_iff (client : Client) (s : Settings) (r : Incoming)
    (upstream : UpstreamRequest → Except PyExc Outcome) :
    Relays ((proxyRequest s r).map upstream) (proxy client s r upstream).2.handed ↔
      client.requestVersion ≠ "HTTP/0.9" ∧ Relayable client ((proxyRequest s r).map upstream) := by
  rw [proxy]
  generalize (proxyRequest s r).map upstream = requested
  by_cases hversion : client.requestVersion = "HTTP/0.9"
  · refine iff_of_false (fun hrelays => ?_) (fun h => h.1 hversion)
    have hone := hrelays.oneStatusLine
    rcases requested with _ | e | outcome
    · rw [countP_answer_old hversion] at hone
      cases hone
    · cases hone
    · rw [countP_forward_old hversion] at hone
      cases hone
  · rw [and_iff_right hversion]
    rcases requested with _ | e | outcome
    · refine iff_of_true ?_ trivial
      dsimp only
      rw [answer_bare hversion]
      refine ⟨fun _ hr => (by cases hr),?_,rfl⟩
      intro head hhead hstatus
      obtain rfl : head = sendResponse client 400 [] := by simpa using hhead
      cases hstatus
    · refine iff_of_false (fun hrelays => ?_) id
      cases hrelays.oneStatusLine
    · cases outcome with
      | fails e => exact relays_fails_iff hversion e
      | breaks head e => exact relays_breaks_iff hversion head e
      | responds r =>
        rcases Nat.lt_or_ge maxUpstreamResponseBytes r.body.length with hlarge | hsmall
        · exact relays_large_iff hversion r hlarge
        · exact relays_small_iff hversion r hsmall

private def listening : Client := ⟨"HTTP/1.1","BaseHTTP/0.6 Python/3.12","",fun _ => false⟩

private def messagesRequest : Incoming where
  command := "POST"
  path := "/v1/messages"
  headers := []
  rfile := []
  path_ne := by decide
  path_solid := List.all_iff_forall_prop.mp (by decide)

/-- A response that asks to wait. -/
private def tooManyRequests : Response := ⟨⟨429,[("Retry-After","30")]⟩,[]⟩

/-- The upstream's 429 reaches the client as a 502. -/
theorem rate_limit_hidden :
    ¬Relays ((proxyRequest ⟨some "sk-key",none,"https://api.anthropic.com"⟩ messagesRequest).map
        (fun _ => .ok (.responds tooManyRequests)))
      (proxy listening ⟨some "sk-key",none,"https://api.anthropic.com"⟩ messagesRequest
        (fun _ => .ok (.responds tooManyRequests))).2.handed := by
  intro hrelays
  have hlen : (contentLength messagesRequest).isSome := by decide
  rw [← proxyRequest_isSome ⟨some "sk-key",none,"https://api.anthropic.com"⟩] at hlen
  obtain ⟨req,hreq⟩ := Option.isSome_iff_exists.mp hlen
  rw [proxy, hreq] at hrelays
  have hsmall := (relays_small_iff (by decide) tooManyRequests (Nat.zero_le _)).mp hrelays
  cases hsmall.1

end NanoClaw.CredentialProxy
