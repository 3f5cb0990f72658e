/-
# `HttpTest` — the thread that upgrades the firmware (`http_test.c`)

A frame with a URL makes a queue and a thread and posts message 120 (`http_startTest`).
The handler of that message requests the URL; the callback posts message 122 where the
answer is one of success; and the handler of that reads the body into `fota.img` and
calls `Fota_test ()`.  `KING_MsgSend`, `malloc` and the calls on the file may fail
(`HttpTestIo`); `KING_MsgCreate` and `KING_ThreadCreate` do not.

`http_startTest` does not ask whether an upgrade is under way.  Where one is, the next
frame with a URL starts a second thread beside the first, and the two share the
variables of the client; a handler, which is one step here, is then not left alone.  So
everything is said of runs in which a frame with a URL comes when no message is handled
and none waits (`Apart`).  The queue before it is empty then, and nothing is posted to it
any more.

In each such run the client is at rest whenever the thread waits for a message, and
`Fota_test` is called once for each answer of success whose message is not lost
(`upgrades_settled`).  What is in the file when it is called comes from the socket of one
attempt of one request, the last: it is the body of a response with `Content-Length`
exactly if all of that arrives there, and then that body is in the flash when the flag is
set (`upgrades_exact`); a body in chunks has no place there.  And a URL that is rejected
does not stop an upgrade: the one before it is requested again (`rejected_requestsLast`).
-/
import IntercomSalve.FotaCopy
import IntercomSalve.RequestRuns

namespace IntercomSalve

open CString HttpClient HttpSession Fota

/-! ## The thread -/

/-- The client, the thread that was started last and its queue. -/
structure HttpTest where
  session : HttpSession
  /-- `HTTP_URL` -/
  url : List UInt8
  /-- the messages in `httpMsgHandle` -/
  queue : List Nat
  /-- the thread has not returned -/
  running : Bool
  /-- what is in `fota.img` -/
  file : List UInt8

/-- What the outside gives to the handler of a message. -/
structure HttpTestIo where
  /-- to the attempts of a request -/
  hops : List Hop := []
  /-- `KING_MsgSend` does not return -1 -/
  sent : Bool := true
  /-- `malloc` gives a buffer for the parts of the image -/
  pData : Bool := true
  /-- `KING_FsFileCreate` gives a handle -/
  created : Bool := true
  /-- how much a call of `KING_FsFileWrite` takes, where that is not all -/
  writes : Nat → Option Nat := fun _ => none

/-- All of the image can be written. -/
structure HttpTestIo.WritesAll (io : HttpTestIo) : Prop where
  created : io.created = true
  writes : ∀ i, io.writes i = none

/-- The message that `http_get_callback` posts for a call of `rspCb`. -/
def HttpOut.posts : HttpOut → Option Nat
  | .rspCb errCode httprspcode contentLen =>
      httpGetCallback (.rspCb errCode httprspcode contentLen)
  | _ => none

/-- `http_test (0)`, behind the wait for the network, and `http_getTest`: what `http_urlParse`
returns is compared with -1, which it never is. -/
def httpGetTest (io : HttpTestIo) (t : HttpTest) : Option HttpTest :=
  let s := (t.session.parseUrl t.url).2
  (s.httpGet [] io.hops).map fun s' =>
    let posts := (s'.out.drop s.out.length).filterMap HttpOut.posts
    { t with session := s', queue := if io.sent then t.queue ++ posts else t.queue }

/-- `KING_FsFileWrite`, behind what is in the file. -/
def fsFileWrite (takes : Option Nat) (file pData : List UInt8) : List UInt8 :=
  match takes with
  | none => file ++ pData
  | some n => file ++ pData.take n

/-- The loop of message 122, with what is in the file and in `bytesRead`. -/
def writeFota : Nat → (Nat → Option Nat) → List UInt8 → Nat → HttpSession →
    Option (List UInt8 × HttpSession)
  | 0, _, _, _, _ => none
  | fuel + 1, writes, file, bytesRead, s =>
      (s.readContent 1024 bytesRead false).bind fun (r, s) =>
        if r.ret ≠ 0 then some (file, s)
        else
          let file := fsFileWrite (writes 0) file (r.pData.slice 0 r.actualDataLen)
          if r.readEnd then some (file, s)
          else writeFota fuel (fun i => writes (i + 1)) file r.actualDataLen s

/-- The handler of message 122.  Without a buffer the thread returns; without a handle the file
stays as it is. -/
def flashImage (io : HttpTestIo) (t : HttpTest) : Option HttpTest :=
  if !io.pData then some { t with running := false }
  else
    let fuel := t.session.http.bodyBufLen + t.session.sock.bytes.length + 1
    let writes := if io.created then io.writes else fun _ => some 0
    (writeFota fuel writes (if io.created then [] else t.file) 0 t.session).map
      fun (file, s) => { t with session := s, file := file }

/-- `http_startTest`. -/
def httpStartTest (url : List UInt8) (sent : Bool) (t : HttpTest) : HttpTest :=
  { t with url := url, queue := if sent then [120] else [], running := true }

/-- A message is taken from the queue and handled; `type` is 0 and stays so. -/
def takeMessage (io : HttpTestIo) (t : HttpTest) : Option HttpTest :=
  match t.queue with
  | [] => none
  | messageID :: queue =>
      let t := { t with queue := queue }
      if messageID = 120 ∨ messageID = 121 then httpGetTest io t
      else if messageID = 122 then flashImage io t
      else some t

/-- What happens to the thread. -/
inductive HttpTestAct where
  /-- a frame brings a URL -/
  | start (url : List UInt8) (sent : Bool)
  /-- the thread goes on -/
  | message (io : HttpTestIo)

/-- `http_test_thread`. -/
def execHttpTest : HttpTestAct → HttpTest → Option HttpTest
  | .start url sent, t => some (httpStartTest url sent t)
  | .message io, t => if t.running then takeMessage io t else none

/-! ## What the steps are -/

def HttpTestAct.isStart : HttpTestAct → Bool
  | .start _ _ => true
  | .message _ => false

def HttpTestAct.io : HttpTestAct → HttpTestIo
  | .message io => io
  | .start _ _ => {}

/-- An answer of success. -/
def HttpOut.isSuccess (o : HttpOut) : Bool := o.posts.isSome

def HttpOut.isCreate : HttpOut → Bool
  | .socketCreate _ => true
  | _ => false

/-- How many requests have been answered with success. -/
def HttpSession.successes (s : HttpSession) : Nat := s.out.countP HttpOut.isSuccess

/-- How many sockets have been created. -/
def HttpSession.sockets (s : HttpSession) : Nat := s.out.countP HttpOut.isCreate

section StepKinds

variable (e : Run.Step HttpTestAct HttpTest)

/-- A frame with a URL comes only when no message waits. -/
def Apart : Prop := e.act.isStart = true → e.pre.queue = []

instance : Decidable (Apart e) :=
  inferInstanceAs (Decidable (e.act.isStart = true → e.pre.queue = []))

/-- The step handles a message. -/
def handles (messageID : Nat) (e : Run.Step HttpTestAct HttpTest) : Bool :=
  !e.act.isStart && e.pre.queue.head? == some messageID

/-- The image is read, and `Fota_test` called. -/
def flashes : Bool := handles 122 e && e.act.io.pData

/-- Message 122 is not posted, or its handler has no buffer. -/
def loses : Bool :=
  handles 122 e && !e.act.io.pData ||
    handles 120 e && !e.act.io.sent &&
      decide (e.pre.session.successes < e.post.session.successes)

/-- What the outside gave to the attempt that was last: each one before it has created a socket
as well. -/
def lastHop : Option Hop :=
  e.act.io.hops[e.post.session.sockets - e.pre.session.sockets - 1]?

end StepKinds

/-- The step with the last request. -/
def lastRequest (l : List (Run.Step HttpTestAct HttpTest)) :
    Option (Run.Step HttpTestAct HttpTest) :=
  (l.filter (handles 120)).getLast?

/-! ## Where an answer of success comes from -/

/-- The last answer is that of the response on the socket of `hop`. -/
def ServedBy (hop : Hop) (answer : HttpAnswer) (s' : HttpSession) : Prop :=
  ∃ h, Waiting h ∧
    h.httpReceiveRsp (hop.sock.bytes.length + 1) [] hop.sock = some ((s'.http, answer), s'.sock)

/-- The last answer is that of the attempt whose socket was created last, behind `n` others. -/
def ServedLast (hops : List Hop) (n : Nat) (answer : HttpAnswer) (s' : HttpSession) : Prop :=
  ∃ k hop, s'.sockets = n + k + 1 ∧ hops[k]? = some hop ∧ ServedBy hop answer s'

/-- A request that begins behind `n` sockets ends with an answer, which is not one of success, or
that of a response. -/
def EndsServed (hops : List Hop) (n : Nat) (s' : HttpSession) : Prop :=
  ∃ before errCode code contentLen, s'.out = before ++ [.rspCb errCode code contentLen] ∧
    (httpGetCallback (.rspCb errCode code contentLen) = none ∨
      ServedLast hops n (.rspCb errCode code contentLen) s')

theorem callback_of_err {errCode : Nat} (h : errCode ≠ 0) (code : Int) (contentLen : Nat) :
    httpGetCallback (.rspCb errCode code contentLen) = none :=
  if_neg fun hc => h hc.1

theorem callback_of_code {code : Int} (h : code ≠ httpResponseCodeOk) (errCode contentLen : Nat) :
    httpGetCallback (.rspCb errCode code contentLen) = none :=
  if_neg fun hc => h hc.2

theorem endsServed_err {hops : List Hop} {n : Nat} {s' : HttpSession} {before : List HttpOut}
    {errCode : Nat} (hout : s'.out = before ++ [.rspCb errCode 0 0]) (h : errCode ≠ 0) :
    EndsServed hops n s' :=
  ⟨before, errCode, 0, 0, hout, .inl (callback_of_err h _ _)⟩

/-- A redirection that leads nowhere. -/
theorem endsServed_result {hops : List Hop} {n : Nat} {s : HttpSession}
    (h : s.http.rspcode ≠ httpResponseCodeOk) :
    EndsServed hops n (s.deliver s.http.httpResultRspHandler) := by
  rw [httpResultRspHandler_eq]
  exact ⟨_, _, _, _, rfl, .inl (callback_of_code h _ _)⟩

/-! ### The sockets that are created -/

theorem sockets_of_out {s s' : HttpSession} {outs : List HttpOut} (h : s'.out = s.out ++ outs)
    (hno : outs.countP HttpOut.isCreate = 0) : s'.sockets = s.sockets := by
  rw [HttpSession.sockets, h, List.countP_append, hno]
  rfl

theorem sockets_setHttp (h : HttpClient) (s : HttpSession) : (s.setHttp h).sockets = s.sockets := by
  have hno : (if s.http.socketFd ≠ -1 ∧ h.socketFd = -1 then
      [HttpOut.socketClose s.http.socketFd] else []).countP HttpOut.isCreate = 0 := by
    split <;> rfl
  exact sockets_of_out rfl hno

theorem sockets_deliver (answer : HttpClient × HttpAnswer) (s : HttpSession) :
    (s.deliver answer).sockets = s.sockets := by
  obtain ⟨h, answer⟩ := answer
  cases answer with
  | redirect => exact sockets_setHttp h s
  | rspCb errCode code contentLen =>
      exact (sockets_of_out (s := s.setHttp h) rfl rfl).trans (sockets_setHttp h s)

theorem sockets_sending (fd : Int) (ps : List (List UInt8)) :
    (sending fd ps).countP HttpOut.isCreate = 0 := by
  refine List.countP_eq_zero.mpr fun o ho => ?_
  obtain ⟨p, -, rfl⟩ := List.mem_map.mp ho
  exact Bool.false_ne_true

section Attempt

variable {hop : Hop} {hops : List Hop} {n : Nat} {next : HttpSession → Option HttpSession}

/-- What the attempt that a redirection starts behind `n` sockets ends in. -/
def NextServed (hops : List Hop) (n : Nat) (next : HttpSession → Option HttpSession) : Prop :=
  ∀ s s', s.isHttpInited = true → s.http.readCurLen = 0 → s.sockets = n → next s = some s' →
    EndsServed hops n s'

theorem EndsServed.mono {s' : HttpSession} (h : EndsServed hops (n + 1) s') :
    EndsServed (hop :: hops) n s' := by
  obtain ⟨before, errCode, code, contentLen, hout, hend⟩ := h
  refine ⟨before, errCode, code, contentLen, hout, hend.imp_right ?_⟩
  rintro ⟨k, hop', hcount, hget, hserved⟩
  exact ⟨k + 1, hop', by omega, hget, hserved⟩

theorem endsServed_redirect (hnext : NextServed hops (n + 1) next) {s s' : HttpSession}
    {rxBuf : List UInt8} (hinit : s.isHttpInited = true) (hread : s.http.readCurLen = 0)
    (hcount : s.sockets = n + 1) (hcode : s.http.rspcode ≠ httpResponseCodeOk)
    (h : s.httpRedirectRspStatus hop next rxBuf = some s') : EndsServed (hop :: hops) n s' := by
  unfold httpRedirectRspStatus at h
  split at h
  · obtain rfl := Option.some.inj h
    exact endsServed_result hcode
  · obtain ⟨location, -, h⟩ := Option.bind_eq_some_iff.mp h
    cases location with
    | none =>
        obtain rfl := Option.some.inj h
        exact endsServed_result (s := { s with http.rspcode := httpResponseCodeMethodNotAllowed })
          (by decide : httpResponseCodeMethodNotAllowed ≠ httpResponseCodeOk)
    | some location =>
        dsimp only at h
        split at h
        · rw [parseUrl_eq hinit] at h
          dsimp only at h
          split at h
          · obtain rfl := Option.some.inj h
            exact endsServed_result hcode
          · refine (hnext _ _ ?_ ?_ ?_ h).mono
            · exact httpUrlParse_inited _ _ (p := s.parser) hinit
            · exact hread
            · exact hcount
        · obtain rfl := Option.some.inj h
          exact endsServed_result (s := { s with http.rspcode := httpResponseCodeDnsError })
            (by decide : httpResponseCodeDnsError ≠ httpResponseCodeOk)

theorem endsServed_receive (hnext : NextServed hops (n + 1) next) {s s' : HttpSession}
    (hinit : s.isHttpInited = true) (hw : Waiting s.http) (hcount : s.sockets = n + 1)
    (h : s.receiveRsp hop next = some s') : EndsServed (hop :: hops) n s' := by
  obtain ⟨⟨⟨h', answer⟩, k⟩, hrun, h⟩ := Option.bind_eq_some_iff.mp h
  have hrec : Received s.http hop.sock.bytes (h', answer) k :=
    received_of_receiveRsp (by rw [hw.stateType]; decide) (by rw [hw.stateType]; decide) _ _ _ _ _
      (.start hw.receiveStatus hop.sock) hrun
  have hkeep : ({ s.deliver (h', answer) with sock := k } : HttpSession).sockets = n + 1 :=
    (sockets_deliver (h', answer) s).trans hcount
  cases hrec with
  | @answered _ _ errCode contentLen code _ _ _ =>
      obtain rfl := Option.some.inj h
      exact ⟨_, errCode, code, contentLen, rfl, .inr ⟨0, hop, hkeep, rfl, s.http, hw, hrun⟩⟩
  | redirected _ _ _ hread _ hcode _ _ =>
      refine endsServed_redirect hnext ?_ ?_ hkeep ?_ h
      · exact hinit
      · exact hread.trans hw.readCurLen
      · exact hcode

theorem endsServed_send (hnext : NextServed hops (n + 1) next) {s s' : HttpSession}
    (hinit : s.isHttpInited = true) (hread : s.http.readCurLen = 0) (hcount : s.sockets = n + 1)
    (hfd : s.http.socketFd ≠ -1) (h : s.httpActionSendData hop next = some s') :
    EndsServed (hop :: hops) n s' := by
  have hw := s.written_pack
  unfold httpActionSendData at h
  split at h
  · obtain rfl := Option.some.inj h
    exact endsServed_err rfl (by decide)
  · obtain ⟨⟨ret, s₁⟩, hsend, h⟩ := Option.bind_eq_some_iff.mp h
    obtain ⟨ps, reach, rfl, -⟩ := sendRequestPack_spec hfd hsend
    dsimp only at h
    split at h
    · obtain rfl := Option.some.inj h
      exact endsServed_err rfl (by decide)
    · next hreach =>
      split at h
      · refine endsServed_receive hnext ?_ ?_ ?_ h
        · exact hw.same.inited.trans hinit
        · exact ⟨rfl, fun hno => hfd (hw.socketFd.symm.trans hno), Bool.eq_false_iff.mpr hreach,
            rfl, hw.same.readCurLen.trans hread, rfl⟩
        · refine (sockets_of_out (s := s) ?_ (sockets_sending s.http.socketFd ps)).trans hcount
          show s.httpConstructRequestPack.out
            ++ sending s.httpConstructRequestPack.http.socketFd ps = _
          rw [hw.out, hw.socketFd]
      · obtain rfl := Option.some.inj h
        exact endsServed_err rfl (by decide)

theorem exitRequest_connectFails (s : HttpSession) (errCode : Nat) :
    (s.connectFails errCode).2.exitRequest.out
      = (s.connectFails errCode).2.out ++ [.rspCb errCode 0 0] := by
  show _ ++ [HttpOut.rspCb (s.connectFails errCode).2.http.httpErrCode 0 0] = _
  rw [connectFails_err]

theorem endsServed_connect (hnext : NextServed hops (n + 1) next) {s s' : HttpSession}
    (hinit : s.isHttpInited = true) (hread : s.http.readCurLen = 0) (hcount : s.sockets = n)
    (h : (s.httpSocketCreatAndConnect hop next).map
      (fun r => if r.1 ≠ 0 then r.2.exitRequest else r.2) = some s') :
    EndsServed (hop :: hops) n s' := by
  obtain ⟨⟨ret, t⟩, h, hs'⟩ := Option.map_eq_some_iff.mp h
  -- an error returns -1
  have hfails {e : Nat} {s₁ : HttpSession} (hne : e ≠ 0)
      (he : some (s₁.connectFails e) = some (ret, t)) : EndsServed (hop :: hops) n s' := by
    obtain ⟨rfl, rfl⟩ := Prod.mk.inj (Option.some.inj he)
    obtain rfl := hs'
    exact endsServed_err (exitRequest_connectFails s₁ e) hne
  have hclosed : (s.setHttp s.http.httpCloseSocket).sockets = n :=
    (sockets_setHttp _ s).trans hcount
  unfold httpSocketCreatAndConnect at h
  dsimp only at h
  split at h
  · exact hfails (by decide) h
  · next new _ =>
    split at h
    · exact hfails (by decide) h
    · split at h
      · exact hfails (by decide) h
      · split at h
        · exact hfails (by decide) h
        · split at h
          · exact hfails (by decide) h
          · split at h
            · exact hfails (by decide) h
            · obtain ⟨s₃, hrun, heq⟩ := Option.map_eq_some_iff.mp h
              obtain ⟨rfl, rfl⟩ := Prod.mk.inj heq
              obtain rfl := hs'
              refine endsServed_send hnext ?_ ?_ ?_ ?_ hrun
              · exact hinit
              · exact hread
              · show (((s.setHttp s.http.httpCloseSocket).out ++ [HttpOut.socketCreate new])
                  ++ [HttpOut.socketConnect _ _ _]).countP HttpOut.isCreate = n + 1
                rw [List.countP_append, List.countP_append]
                exact congrArg (· + 1) hclosed
              · exact natCast_ne_neg new

end Attempt

/-- **An answer of success is that of one attempt**, whose socket was created last. -/
theorem endsServed_attempts :
    ∀ (hops : List Hop) (s s' : HttpSession), s.isHttpInited = true → s.http.readCurLen = 0 →
      s.httpGetOrPostReqHandle hops = some s' → EndsServed hops s.sockets s'
  | [], _, _, _, _, h => by
      unfold httpGetOrPostReqHandle at h
      exact absurd h (by simp)
  | hop :: hops, s, s', hinit, hread, h => by
      have hnext : NextServed hops (s.sockets + 1) (httpGetOrPostReqHandle hops) :=
        fun t t' ht hr hcount ht' => hcount ▸ endsServed_attempts hops t t' ht hr ht'
      unfold httpGetOrPostReqHandle at h
      split at h
      · obtain rfl := Option.some.inj h
        have hout : { s.setErr httpDnsErr with http.stateType := .urlReady }.exitRequest.out
            = s.out ++ [.rspCb httpDnsErr 0 0] := rfl
        exact endsServed_err hout (by decide)
      · refine endsServed_connect hnext ?_ ?_ ?_ h
        · exact hinit
        · exact hread
        · rfl

/-! ## The client between two messages -/

/-- The client is at rest, and initialised if it has a URL. -/
structure Idle (s : HttpSession) : Prop where
  isRunning : s.http.isRunning = false
  inited : s.isHttpInited = true ∨ s.http.stateType ≠ .urlReady

theorem parseUrl_out (pUrl : List UInt8) (s : HttpSession) : (s.parseUrl pUrl).2.out = s.out := by
  unfold parseUrl
  dsimp only
  split
  · rfl
  · unfold HttpSession.httpInit
    split <;> rfl

/-- `http_urlParse`, which initialises the client unless the URL is none. -/
theorem Idle.parseUrl {s : HttpSession} (h : Idle s) (pUrl : List UInt8) :
    Idle (s.parseUrl pUrl).2 := by
  by_cases hinit : s.isHttpInited = true
  · rw [parseUrl_eq hinit]
    exact ⟨h.isRunning, .inl (httpUrlParse_inited _ _ (p := s.parser) hinit)⟩
  · have hst := h.inited.resolve_left hinit
    unfold HttpSession.parseUrl
    dsimp only
    split
    · next hno =>
      have hbad : (cString pUrl).length = 0 ∨ httpUrlMaxLen < (cString pUrl).length := by
        rcases hno with h0 | hlong | hc
        · exact .inl h0
        · exact .inr hlong
        · exact absurd hc hinit
      have hfails : httpUrlParse ⟨true, true, true⟩ (some pUrl) s.parser
          = urlFails httpEmptyUrl s.parser := if_pos hbad
      rw [hfails]
      exact ⟨h.isRunning, .inr hst⟩
    · have hinit' : s.httpInit.isHttpInited = true ∧ s.httpInit.http.isRunning = false := by
        unfold HttpSession.httpInit HttpClient.httpClearBuf
        rw [if_neg hinit]
        dsimp only
        split <;> exact ⟨rfl, rfl⟩
      exact ⟨hinit'.2, .inl (httpUrlParse_inited _ _ (p := s.httpInit.parser) hinit'.1)⟩

/-- The message that is posted when a request has been answered. -/
theorem posts_answer {before : List HttpOut} (h : Quiet before) (errCode : Nat) (code : Int)
    (contentLen : Nat) :
    (before ++ [HttpOut.rspCb errCode code contentLen]).filterMap HttpOut.posts
      = (httpGetCallback (.rspCb errCode code contentLen)).toList := by
  have hnone : before.filterMap HttpOut.posts = [] := by
    refine List.filterMap_eq_nil_iff.mpr fun o ho => ?_
    have hquiet := h o ho
    cases o <;> first | rfl | exact absurd hquiet (by simp [HttpOut.isRspCb])
  rw [List.filterMap_append, hnone, List.nil_append]
  cases hc : httpGetCallback (.rspCb errCode code contentLen) with
  | none => exact List.filterMap_cons_none hc
  | some m => exact List.filterMap_cons_some hc

/-- What a request from a client at rest ends in: it is answered once, and where that is with
success, by the attempt whose socket was created last. -/
def Answers (hops : List Hop) (s s' : HttpSession) : Prop :=
  Idle s' ∧ ∃ before errCode code contentLen,
    s'.out = s.out ++ (before ++ [.rspCb errCode code contentLen]) ∧ Quiet before ∧
    (httpGetCallback (.rspCb errCode code contentLen) = none ∨
      httpGetCallback (.rspCb errCode code contentLen) = some 122 ∧ s'.isHttpInited = true ∧
        ServedLast hops s.sockets (.rspCb errCode code contentLen) s')

theorem answers_exit {hops : List Hop} {s s₁ : HttpSession} (hout : s₁.out = s.out)
    (hinit : s₁.isHttpInited = true ∨ s₁.http.stateType ≠ .urlReady) {errCode : Nat}
    (hne : errCode ≠ 0) : Answers hops s (s₁.setErr errCode).exitRequest :=
  ⟨⟨rfl, hinit⟩, [], errCode, 0, 0, congrArg (· ++ [_]) hout, quiet_nil,
    .inl (callback_of_err hne _ _)⟩

theorem answers_attempts {hops : List Hop} {s s₁ s' : HttpSession}
    (h : s₁.httpGetOrPostReqHandle hops = some s') (hout : s₁.out = s.out)
    (hinit : s₁.isHttpInited = true) (hread : s₁.http.readCurLen = 0) : Answers hops s s' := by
  obtain ⟨outs, ho, hchain, hrest, -⟩ := endsAs_attempts hinit hops s₁ s' (.refl s₁) h
  obtain ⟨before, errCode, code, contentLen, rfl, hquiet⟩ := hchain.answer
  obtain ⟨before', errCode', code', contentLen', ho', hserved⟩ :=
    endsServed_attempts hops s₁ s' hinit hread h
  have hcount : s₁.sockets = s.sockets := congrArg (List.countP HttpOut.isCreate) hout
  rw [hcount] at hserved
  rw [hout] at ho
  have hlast : (s.out ++ before) ++ [HttpOut.rspCb errCode code contentLen]
      = before' ++ [HttpOut.rspCb errCode' code' contentLen'] := by
    rw [List.append_assoc, ← ho, ho']
  obtain ⟨rfl, rfl, rfl⟩ := HttpOut.rspCb.inj
    (List.singleton_inj.mp (List.append_inj' hlast rfl).2)
  refine ⟨⟨hrest.isRunning, .inl hrest.inited⟩, before, errCode, code, contentLen, ho, hquiet, ?_⟩
  by_cases hok : errCode = 0 ∧ code = httpResponseCodeOk
  · have hpost : httpGetCallback (.rspCb errCode code contentLen) = some 122 := if_pos hok
    exact .inr ⟨hpost, hrest.inited, hserved.resolve_left fun hnone => by simp [hpost] at hnone⟩
  · exact .inl (if_neg hok)

theorem Idle.get {s s' : HttpSession} (hidle : Idle s) {pHeaderStr : List UInt8} {hops : List Hop}
    (h : s.httpGet pHeaderStr hops = some s') : Answers hops s s' := by
  unfold httpGet at h
  split at h
  · next s₁ href =>
    obtain rfl := Option.some.inj h
    unfold refused at href
    rw [if_neg (by rw [hidle.isRunning]; decide)] at href
    split at href
    · obtain rfl := Option.some.inj href
      exact answers_exit rfl hidle.inited (by decide)
    · split at href
      · obtain rfl := Option.some.inj href
        exact answers_exit rfl hidle.inited (by decide)
      · exact absurd href (by simp)
  · next href =>
    have hready : s.http.stateType = .urlReady := by
      unfold refused at href
      rw [if_neg (by rw [hidle.isRunning]; decide)] at href
      by_contra hno
      rw [if_pos hno] at href
      exact absurd href (by simp)
    have hinit : s.isHttpInited = true := hidle.inited.resolve_right fun hno => hno hready
    dsimp only at h
    split at h
    · split at h
      · obtain rfl := Option.some.inj h
        exact answers_exit (rfl : (s.beginRequest .get).out = s.out) (.inl hinit)
          (by decide : httpInvalidParam ≠ 0)
      · exact answers_attempts h rfl hinit rfl
    · exact answers_attempts h rfl hinit rfl

/-! ## Reading the image -/

/-- The socket still delivers the rest of what `hop` gave it: whatever response that is the
beginning of, so much of its body is in `pBody` and nothing in the file. -/
def Loaded (hop : Hop) (s : HttpSession) : Prop :=
  ∀ r : HttpResponse, hop.sock.bytes <+: r.bytes → Buffered r [] s.http s.sock.bytes ∧
    r.header.length + (s.http.receiveSize + s.sock.bytes.length) = hop.sock.bytes.length

theorem ServedBy.loaded {hop : Hop} {answer : HttpAnswer} {s' : HttpSession}
    (h : ServedBy hop answer s') (hok : httpGetCallback answer = some 122) : Loaded hop s' := by
  intro r hpre
  obtain ⟨h₀, hw, hrun⟩ := h
  obtain ⟨h', answer', k', hrun', hend⟩ := hw.receive (hop.sock.bytes.length + 1) [] h₀ hop.sock
    (r := r) (by simpa using hpre)
    (by have := r.four_le_length; simp only [List.length_nil]; omega) (by omega)
  obtain ⟨heq, rfl⟩ := Prod.mk.inj (Option.some.inj (hrun.symm.trans hrun'))
  obtain ⟨rfl, rfl⟩ := Prod.mk.inj heq
  simp only [List.length_nil, Nat.zero_add] at hend
  rcases hend with ⟨-, hnone⟩ | ⟨total, htotal, hanswer⟩
  · exact absurd (hok.symm.trans hnone) (by simp)
  · rw [Answered] at hanswer
    split at hanswer
    · obtain ⟨-, hb, hsum⟩ := hanswer
      exact ⟨hb, by omega⟩
    · exact absurd (hok.symm.trans hanswer) (by simp)

/-- Where all of the image can be written, the file is what is read. -/
theorem writeFota_fst :
    ∀ (fuel : Nat) (writes : Nat → Option Nat) (file : List UInt8) (bytesRead : Nat)
      (s : HttpSession), (∀ i, writes i = none) →
      (writeFota fuel writes file bytesRead s).map Prod.fst
        = writeImage fuel file bytesRead s.http s.sock
  | 0, _, _, _, _, _ => rfl
  | fuel + 1, writes, file, bytesRead, s, hall => by
      unfold writeFota writeImage readContent
      cases hr : s.http.httpReadContentDataAndLen 1024 bytesRead false s.sock with
      | none => rfl
      | some r =>
          rw [Option.map_some, Option.bind_some, Option.bind_some, hall 0]
          dsimp only [fsFileWrite]
          split
          · rfl
          · split
            · rfl
            · exact writeFota_fst fuel _ _ _ _ fun i => hall (i + 1)

/-- **What is in the file** is the body of a response, exactly if all of it arrives. -/
theorem Loaded.image {hop : Hop} {s s' : HttpSession} (hl : Loaded hop s) {file : List UInt8}
    {writes : Nat → Option Nat} (hall : ∀ i, writes i = none)
    (h : writeFota (s.http.bodyBufLen + s.sock.bytes.length + 1) writes [] 0 s = some (file, s'))
    {r : HttpResponse} (hpre : hop.sock.bytes <+: r.bytes) :
    file = r.body ↔ hop.sock.bytes = r.bytes := by
  obtain ⟨hb, hlen⟩ := hl r hpre
  obtain ⟨img, himg, hiff⟩ := writeImage_eq (s.http.bodyBufLen + s.sock.bytes.length + 1) [] 0
    s.http s.sock (.inl hb) (by omega)
  rw [← writeFota_fst _ _ _ _ _ hall, h] at himg
  obtain rfl := Option.some.inj himg
  have hsame : hop.sock.bytes = r.bytes
      ↔ hop.sock.bytes.length = r.header.length + r.body.length := by
    rw [← List.length_append]
    exact ⟨fun he => by rw [he]; rfl, fun he => hpre.eq_of_length he⟩
  rw [hsame, ← hlen]
  exact hiff.trans Nat.add_left_cancel_iff.symm

theorem Loaded.flashImage {hop : Hop} {io : HttpTestIo} {t t' : HttpTest}
    (hl : Loaded hop t.session) (hbuf : io.pData = true) (hall : io.WritesAll)
    (h : flashImage io t = some t') {r : HttpResponse} (hpre : hop.sock.bytes <+: r.bytes) :
    t'.file = r.body ↔ hop.sock.bytes = r.bytes := by
  rw [IntercomSalve.flashImage, hbuf, hall.created] at h
  obtain ⟨⟨file, s'⟩, hfile, rfl⟩ := Option.map_eq_some_iff.mp h
  exact hl.image hall.writes hfile hpre

/-! ### The client behind it -/

/-- The loop of `http_readreceiveRsp` leaves the client at rest, or with more to read. -/
theorem readreceiveLoop_rest (dataLen : Nat) :
    ∀ (fuel recvCnt : Nat) (h : HttpClient) (k : Sock) (r : ReadRsp),
      readreceiveLoop dataLen fuel recvCnt h k = some r → r.ret = 1 ∨ r.http.isRunning = false
  | 0, _, _, _, _, hr => by
      unfold readreceiveLoop at hr
      exact absurd hr (by simp)
  | fuel + 1, recvCnt, h, k, r, hr => by
      have hend {h' : HttpClient} {k' : Sock} {errcode : Nat}
          (he : some (readreceiveEnd h' k' errcode) = some r) :
          r.ret = 1 ∨ r.http.isRunning = false := by
        obtain rfl := Option.some.inj he
        unfold readreceiveEnd
        split
        · exact .inr rfl
        · exact .inl rfl
      unfold readreceiveLoop at hr
      split at hr
      · exact hend hr
      · split at hr
        · exact hend hr
        · dsimp only at hr
          split at hr
          · split at hr
            · exact hend hr
            · exact hend hr
            · exact hend hr
            · split at hr
              · obtain rfl := Option.some.inj hr
                exact .inr rfl
              · exact hend hr
          · split at hr
            · exact hend hr
            · split at hr
              · obtain rfl := Option.some.inj hr
                exact .inr rfl
              · exact readreceiveLoop_rest dataLen fuel _ _ _ r hr

/-- So does `http_readContentDataAndLen`. -/
theorem readContent_rest {dataLen actualDataLen : Nat} (hlen : dataLen ≠ 0) {h : HttpClient}
    {k : Sock} {r : ReadContent}
    (hr : h.httpReadContentDataAndLen dataLen actualDataLen false k = some r) :
    r.ret = 0 ∧ r.readEnd = false ∨ r.http.isRunning = false := by
  unfold httpReadContentDataAndLen at hr
  rw [if_neg hlen] at hr
  dsimp only at hr
  split at hr
  · obtain rfl := Option.some.inj hr
    exact .inl ⟨rfl, rfl⟩
  · split at hr
    · obtain rfl := Option.some.inj hr
      exact .inr rfl
    · obtain ⟨o, ho, rfl⟩ := Option.map_eq_some_iff.mp hr
      have hrest := readreceiveLoop_rest _ _ _ _ _ o ho
      unfold readContentEnd
      split
      · next hret =>
        exact .inr (hrest.resolve_left fun hone => absurd (hret.symm.trans hone) (by decide))
      · split
        · exact .inl ⟨rfl, rfl⟩
        · next hone => exact .inr (hrest.resolve_left hone)

/-- Sockets may be closed while the image is read, but nothing is answered. -/
theorem writeFota_rest :
    ∀ (fuel : Nat) (writes : Nat → Option Nat) (file : List UInt8) (bytesRead : Nat)
      (s : HttpSession) (file' : List UInt8) (s' : HttpSession),
      writeFota fuel writes file bytesRead s = some (file', s') →
      s'.http.isRunning = false ∧ s'.isHttpInited = s.isHttpInited ∧
        ∃ outs, s'.out = s.out ++ outs ∧ Quiet outs
  | 0, _, _, _, _, _, _, h => by
      unfold writeFota at h
      exact absurd h (by simp)
  | fuel + 1, writes, file, bytesRead, s, file', s', h => by
      unfold writeFota at h
      obtain ⟨⟨r, s₁⟩, hread, h⟩ := Option.bind_eq_some_iff.mp h
      obtain ⟨r, hr, heq⟩ := Option.map_eq_some_iff.mp hread
      obtain ⟨rfl, rfl⟩ := Prod.mk.inj heq
      have hrest := readContent_rest (by decide) hr
      have hquiet : Quiet (if s.http.socketFd ≠ -1 ∧ r.http.socketFd = -1 then
          [HttpOut.socketClose s.http.socketFd] else []) := by
        split
        · exact quiet_cons rfl quiet_nil
        · exact quiet_nil
      dsimp only at h
      split at h
      · next hret =>
        obtain ⟨rfl, rfl⟩ := Prod.mk.inj (Option.some.inj h)
        exact ⟨hrest.resolve_left fun hc => hret hc.1, rfl, _, rfl, hquiet⟩
      · split at h
        · next hend =>
          obtain ⟨rfl, rfl⟩ := Prod.mk.inj (Option.some.inj h)
          refine ⟨hrest.resolve_left fun hc => ?_, rfl, _, rfl, hquiet⟩
          exact absurd (hend.symm.trans hc.2) (by decide)
        · obtain ⟨hrun, hinit, outs, hout, hq⟩ := writeFota_rest fuel _ _ _ _ file' s' h
          refine ⟨hrun, hinit, _, ?_, hquiet.append hq⟩
          rw [hout]
          exact List.append_assoc _ _ _

/-! ## Every sequence of upgrades -/

theorem Quiet.successes {outs : List HttpOut} (h : Quiet outs) :
    outs.countP HttpOut.isSuccess = 0 := by
  refine List.countP_eq_zero.mpr fun o ho => ?_
  have hquiet := h o ho
  cases o <;> first | exact Bool.false_ne_true | exact absurd hquiet (by simp [HttpOut.isRspCb])

theorem lastRequest_snoc (l : List (Run.Step HttpTestAct HttpTest))
    {e : Run.Step HttpTestAct HttpTest} (h : handles 120 e = true) :
    lastRequest (l ++ [e]) = some e := by
  rw [lastRequest, List.filter_append, List.filter_cons_of_pos h, List.filter_nil,
    List.getLast?_concat]

theorem handles_message {t t' : HttpTest} {messageID : Nat} {queue : List Nat}
    (hq : t.queue = messageID :: queue) (io : HttpTestIo) (n : Nat) :
    handles n ⟨t, .message io, t'⟩ = (messageID == n) := by
  show (!false && t.queue.head? == some n) = _
  rw [hq]
  rfl

/-- The thread before its first upgrade. -/
structure Boot (t : HttpTest) : Prop where
  idle : Idle t.session
  queue : t.queue = []
  out : t.session.successes = 0

/-- An image waits on the socket of the attempt that the last request has ended with. -/
def ImageWaits (l : List (Run.Step HttpTestAct HttpTest)) (s : HttpSession) : Prop :=
  s.isHttpInited = true ∧
    ∃ e hop, lastRequest l = some e ∧ lastHop e = some hop ∧ Loaded hop s

/-- What holds of the thread when it waits, behind the steps `l`. -/
structure Waits (l : List (Run.Step HttpTestAct HttpTest)) (t : HttpTest) : Prop where
  idle : Idle t.session
  queue : t.queue = [] ∨ t.queue = [120] ∨ t.queue = [122] ∧ ImageWaits l t.session
  count : l.countP flashes + t.queue.count 122 + l.countP loses = t.session.successes

theorem Boot.waits {t : HttpTest} (h : Boot t) : Waits [] t := by
  refine ⟨h.idle, .inl h.queue, ?_⟩
  rw [h.queue, h.out]
  rfl

section Steps

variable {l : List (Run.Step HttpTestAct HttpTest)} {t t' : HttpTest} {io : HttpTestIo}

/-- What a step adds to the account. -/
theorem Waits.count_snoc (hw : Waits l t) {e : Run.Step HttpTestAct HttpTest} {queue : List Nat}
    {n : Nat}
    (h : (flashes e).toNat + queue.count 122 + (loses e).toNat = t.queue.count 122 + n) :
    (l ++ [e]).countP flashes + queue.count 122 + (l ++ [e]).countP loses
      = t.session.successes + n := by
  have hflashes : [e].countP flashes = (flashes e).toNat := by
    rw [List.countP_singleton]
    cases flashes e <;> rfl
  have hloses : [e].countP loses = (loses e).toNat := by
    rw [List.countP_singleton]
    cases loses e <;> rfl
  rw [List.countP_append, List.countP_append, hflashes, hloses]
  have := hw.count
  omega

/-- Message 120. -/
theorem Waits.get (hw : Waits l t) (hq : t.queue = [120])
    (h : httpGetTest io { t with queue := [] } = some t') :
    Waits (l ++ [⟨t, .message io, t'⟩]) t' := by
  obtain ⟨s', hget, rfl⟩ := Option.map_eq_some_iff.mp h
  obtain ⟨hidle, before, errCode, code, contentLen, hout, hquiet, hend⟩ :=
    (hw.idle.parseUrl t.url).get hget
  have hposts : (s'.out.drop (t.session.parseUrl t.url).2.out.length).filterMap HttpOut.posts
      = (httpGetCallback (.rspCb errCode code contentLen)).toList := by
    rw [hout, List.drop_left]
    exact posts_answer hquiet _ _ _
  have hparsed := parseUrl_out t.url t.session
  have hsuccesses : s'.successes = t.session.successes
      + (httpGetCallback (.rspCb errCode code contentLen)).toList.length := by
    rw [HttpSession.successes, hout, hparsed, List.countP_append, List.countP_append,
      hquiet.successes, List.countP_singleton, HttpOut.isSuccess, HttpOut.posts]
    cases httpGetCallback (.rspCb errCode code contentLen) <;> rfl
  have h120 : ∀ t', handles 120 ⟨t, .message io, t'⟩ = true := fun t' => handles_message hq io 120
  have h122 : ∀ t', handles 122 ⟨t, .message io, t'⟩ = false := fun t' => handles_message hq io 122
  have hno : t.queue.count 122 = 0 := by rw [hq]; rfl
  rw [hposts]
  rcases hend with hnone | ⟨hok, hinit, hserved⟩
  · -- nothing is posted
    rw [hnone] at hsuccesses ⊢
    have hempty : (if io.sent then [] ++ (none : Option Nat).toList else []) = ([] : List Nat) := by
      split <;> rfl
    refine ⟨hidle, .inl hempty, ?_⟩
    show _ + (if io.sent then [] ++ (none : Option Nat).toList else []).count 122 + _ = s'.successes
    rw [hempty, hsuccesses]
    refine hw.count_snoc ?_
    rw [flashes, loses, h122, h120, hno]
    simp [hsuccesses]
  · rw [hok] at hsuccesses ⊢
    cases hsent : io.sent with
    | false =>
        refine ⟨hidle, .inl rfl, hsuccesses ▸ hw.count_snoc ?_⟩
        rw [flashes, loses, h122, h120, hno]
        simp [HttpTestAct.io, hsent, hsuccesses]
    | true =>
        obtain ⟨k, hop, hcount, hget, hserved⟩ := hserved
        refine ⟨hidle, .inr (.inr ⟨rfl, hinit, _, hop, lastRequest_snoc l (h120 _), ?_,
          hserved.loaded hok⟩), hsuccesses ▸ hw.count_snoc ?_⟩
        · have hparse : (t.session.parseUrl t.url).2.sockets = t.session.sockets :=
            congrArg (List.countP HttpOut.isCreate) hparsed
          have hk : s'.sockets - t.session.sockets - 1 = k := by omega
          show io.hops[s'.sockets - t.session.sockets - 1]? = some hop
          rw [hk, hget]
        · rw [flashes, loses, h122, h120, hno]
          simp [HttpTestAct.io, hsent]

/-- Message 122. -/
theorem Waits.flash (hw : Waits l t) (hq : t.queue = [122])
    (h : flashImage io { t with queue := [] } = some t') :
    Waits (l ++ [⟨t, .message io, t'⟩]) t' := by
  have h120 : ∀ t', handles 120 ⟨t, .message io, t'⟩ = false := fun t' => handles_message hq io 120
  have h122 : ∀ t', handles 122 ⟨t, .message io, t'⟩ = true := fun t' => handles_message hq io 122
  have hone : t.queue.count 122 = 1 := by rw [hq]; rfl
  unfold flashImage at h
  cases hbuf : io.pData with
  | false =>
      rw [hbuf] at h
      obtain rfl := Option.some.inj h
      refine ⟨hw.idle, .inl rfl, hw.count_snoc (n := 0) ?_⟩
      rw [flashes, loses, h122, h120, hone]
      simp [HttpTestAct.io, hbuf]
  | true =>
      rw [hbuf] at h
      obtain ⟨⟨file, s'⟩, hfile, rfl⟩ := Option.map_eq_some_iff.mp h
      obtain ⟨hrun, hinit, outs, hout, hquiet⟩ := writeFota_rest _ _ _ _ _ file s' hfile
      obtain ⟨-, hinit₀, -⟩ :=
        (hw.queue.resolve_left (by rw [hq]; decide)).resolve_left (by rw [hq]; decide)
      have hsuccesses : s'.successes = t.session.successes + 0 := by
        rw [HttpSession.successes, hout, List.countP_append, hquiet.successes]
        rfl
      refine ⟨⟨hrun, .inl (hinit.trans hinit₀)⟩, .inl rfl, hsuccesses ▸ hw.count_snoc ?_⟩
      rw [flashes, loses, h122, h120, hone]
      simp [HttpTestAct.io, hbuf]

theorem Waits.step {a : HttpTestAct} (hw : Waits l t) (h : execHttpTest a t = some t')
    (hapart : Apart ⟨t, a, t'⟩) : Waits (l ++ [⟨t, a, t'⟩]) t' := by
  cases a with
  | start url sent =>
      obtain rfl := Option.some.inj h
      have hq : t.queue = [] := hapart rfl
      have hno : ∀ b : Bool, (if b then [120] else []).count 122 = 0 := by decide
      refine ⟨hw.idle, ?_, hw.count_snoc (n := 0) ?_⟩
      · cases sent
        · exact .inl rfl
        · exact .inr (.inl rfl)
      · show 0 + (if sent then [120] else []).count 122 + 0 = _
        rw [hno, hq]
        rfl
  | message io =>
      have h : (if t.running then takeMessage io t else none) = some t' := h
      split at h
      · unfold takeMessage at h
        rcases hw.queue with hq | hq | ⟨hq, -⟩ <;> rw [hq] at h
        · exact absurd h (by simp)
        · exact hw.get hq h
        · exact hw.flash hq h
      · exact absurd h (by simp)

end Steps

section Upgrades

variable {t t' : HttpTest} {l : List (Run.Step HttpTestAct HttpTest)}

theorem waits_run (h0 : Boot t) (hr : Run.Runs execHttpTest t l t') (hapart : ∀ e ∈ l, Apart e) :
    Waits l t' := by
  induction hr with
  | nil => exact h0.waits
  | @snoc l t₁ t₂ a _ he ih =>
      have hw := ih fun e hmem => hapart e (List.mem_append_left _ hmem)
      exact hw.step he (hapart _ (List.mem_append_right _ (List.mem_singleton_self _)))

/-- Before each step. -/
theorem waits_before (h0 : Boot t) (hr : Run.Runs execHttpTest t l t')
    (hapart : ∀ e ∈ l, Apart e) {l₁ l₂ : List (Run.Step HttpTestAct HttpTest)}
    {e : Run.Step HttpTestAct HttpTest} (hl : l = l₁ ++ e :: l₂) :
    Waits l₁ e.pre ∧ execHttpTest e.act e.pre = some e.post := by
  obtain ⟨hr₁, he⟩ := hr.before hl
  refine ⟨waits_run h0 hr₁ fun e' hmem => hapart e' ?_, he⟩
  rw [hl]
  exact List.mem_append_left _ hmem

/-- **An upgrade for each answer of success.**  However many upgrades there are and however their
requests end, the client is at rest whenever the thread waits, so that no request is refused
because of one before it; there is one message at most; and `Fota_test` has been called, or is
about to be, once for each answer of success, unless the message was not posted or there was no
buffer for the image. -/
theorem upgrades_settled (h0 : Boot t) (hr : Run.Runs execHttpTest t l t')
    (hapart : ∀ e ∈ l, Apart e) :
    t'.session.http.isRunning = false ∧ t'.queue.length ≤ 1 ∧
      l.countP flashes + t'.queue.count 122 + l.countP loses = t'.session.successes := by
  have hw := waits_run h0 hr hapart
  refine ⟨hw.idle.isRunning, ?_, hw.count⟩
  rcases hw.queue with hq | hq | ⟨hq, -⟩ <;> rw [hq] <;> decide

end Upgrades

/-- Nothing has happened yet, and there is no URL. -/
def bootTest : HttpTest :=
  { session := freshSession, url := [], queue := [], running := false, file := [] }

theorem bootTest_boot : Boot bootTest := ⟨⟨rfl, .inl rfl⟩, rfl, rfl⟩

/-- A request with a redirection, behind which there are three bytes of image. -/
def redirectedIo : HttpTestIo :=
  { hops := [servedHop 4 foundResponse, servedHop 5 (okHeader [51] ++ [1, 2, 3])] }

/-- An upgrade for which there is no buffer, and another one. -/
def twoUpgrades : List HttpTestAct :=
  [.start urlA true, .message redirectedIo, .message { pData := false },
    .start urlA true, .message redirectedIo, .message {}]

theorem twoUpgrades_settled :
    ∃ l t', Run.Runs execHttpTest bootTest l t' ∧ l.countP flashes = 1 ∧ l.countP loses = 1 ∧
      t'.session.http.isRunning = false ∧ t'.queue.length ≤ 1 ∧
        l.countP flashes + t'.queue.count 122 + l.countP loses = t'.session.successes := by
  obtain ⟨l, t', hr, htest⟩ : ∃ l t', Run.Runs execHttpTest bootTest l t' ∧
      decide ((∀ e ∈ l, Apart e) ∧ l.countP flashes = 1 ∧ l.countP loses = 1) = true :=
    Run.Runs.of_trace_test (l := twoUpgrades)
      (q := fun (l : List (Run.Step HttpTestAct HttpTest)) _ =>
        decide ((∀ e ∈ l, Apart e) ∧ l.countP flashes = 1 ∧ l.countP loses = 1))
      (by decide +kernel)
  obtain ⟨hapart, hflashes, hloses⟩ := of_decide_eq_true htest
  exact ⟨l, t', hr, hflashes, hloses, upgrades_settled bootTest_boot hr hapart⟩

/-- **What is flashed.**  When `Fota_test` is called and all of the image could be written, the
file comes from the socket of the last attempt of the last request.  If that socket delivers a
response from its beginning, the file is the body exactly if it delivers all of it; and then
every copy of the file that ends with the flag set leaves the body in the flash. -/
theorem upgrades_exact {t t' : HttpTest} {l l₁ l₂ : List (Run.Step HttpTestAct HttpTest)}
    {e : Run.Step HttpTestAct HttpTest} (h0 : Boot t) (hr : Run.Runs execHttpTest t l t')
    (hapart : ∀ e ∈ l, Apart e) (hl : l = l₁ ++ e :: l₂) (hflash : flashes e = true)
    (hall : e.act.io.WritesAll) :
    ∃ e₀ hop, lastRequest l₁ = some e₀ ∧ lastHop e₀ = some hop ∧
      ∀ r : HttpResponse, hop.sock.bytes <+: r.bytes →
        (e.post.file = r.body ↔ hop.sock.bytes = r.bytes) ∧
        (hop.sock.bytes = r.bytes →
          ∀ (flsz : Nat) (pBuf flash : Mem) (copy : List (Run.Step Reply FotaTest)) (s : FotaTest),
            Run.Runs execFota (FotaTest.start flsz pBuf flash) copy s →
            ReadsFile e.post.file copy → SetsReady s →
            s.flash.slice 0 r.body.length = r.body) := by
  obtain ⟨hw, he⟩ := waits_before h0 hr hapart hl
  obtain ⟨x, a, y⟩ := e
  cases a with
  | start url sent => exact absurd hflash Bool.false_ne_true
  | message io =>
      obtain ⟨hhandles, hbuf⟩ := Bool.and_eq_true_iff.mp hflash
      have hw : Waits l₁ x := hw
      have hhead : x.queue.head? = some 122 := beq_iff_eq.mp hhandles
      obtain ⟨hq, -, e₀, hop, hlast, hhop, hloaded⟩ :=
        (hw.queue.resolve_left (by intro hq; simp [hq] at hhead)).resolve_left
          (by intro hq; simp [hq] at hhead)
      have he : (if x.running then takeMessage io x else none) = some y := he
      split at he
      · unfold takeMessage at he
        rw [hq] at he
        have he : flashImage io { x with queue := [] } = some y := he
        have hloaded : Loaded hop ({ x with queue := [] } : HttpTest).session := hloaded
        refine ⟨e₀, hop, hlast, hhop, fun r hpre => ?_⟩
        have hfile : y.file = r.body ↔ hop.sock.bytes = r.bytes :=
          hloaded.flashImage hbuf hall he hpre
        refine ⟨hfile, fun hsame flsz pBuf flash copy s hcopy hreads hset => ?_⟩
        have hreads : ReadsFile r.body copy := hfile.mpr hsame ▸ hreads
        exact (copies_run hcopy hreads).of_setsReady hset
      · exact absurd he (by simp)

/-- The second of two requests is redirected, and its image is handed over. -/
theorem twoUpgrades_exact :
    ∃ l₁ e t', Run.Runs execHttpTest bootTest (l₁ ++ [e]) t' ∧ e.post.file = [1, 2, 3] ∧
      ∃ e₀ hop, lastRequest l₁ = some e₀ ∧ lastHop e₀ = some hop ∧
        ∀ r : HttpResponse, hop.sock.bytes <+: r.bytes →
          (e.post.file = r.body ↔ hop.sock.bytes = r.bytes) ∧
          (hop.sock.bytes = r.bytes →
            ∀ (flsz : Nat) (pBuf flash : Mem) (copy : List (Run.Step Reply FotaTest))
              (s : FotaTest), Run.Runs execFota (FotaTest.start flsz pBuf flash) copy s →
              ReadsFile e.post.file copy → SetsReady s →
              s.flash.slice 0 r.body.length = r.body) := by
  obtain ⟨l₁, t₁, hr, htest⟩ : ∃ l₁ t₁, Run.Runs execHttpTest bootTest l₁ t₁ ∧
      (decide ((∀ e ∈ l₁, Apart e) ∧ t₁.queue.head? = some 122) &&
        (execHttpTest (.message {}) t₁).any fun t' => decide (t'.file = [1, 2, 3])) = true :=
    Run.Runs.of_trace_test (l := twoUpgrades.dropLast)
      (q := fun (l : List (Run.Step HttpTestAct HttpTest)) t =>
        decide ((∀ e ∈ l, Apart e) ∧ t.queue.head? = some 122) &&
          (execHttpTest (.message {}) t).any fun t' => decide (t'.file = [1, 2, 3]))
      (by decide +kernel)
  obtain ⟨htest, hlast⟩ := Bool.and_eq_true_iff.mp htest
  obtain ⟨hapart, hqueue⟩ := of_decide_eq_true htest
  obtain ⟨t', ht', hfile⟩ := (Option.any_eq_true _ _).mp hlast
  have hall : ∀ e ∈ l₁ ++ [⟨t₁, .message {}, t'⟩], Apart e := by
    intro e hmem
    rcases List.mem_append.mp hmem with hmem | hmem
    · exact hapart e hmem
    · obtain rfl := List.mem_singleton.mp hmem
      exact fun hstart => absurd hstart Bool.false_ne_true
  have hflash : flashes ⟨t₁, .message {}, t'⟩ = true := by
    rw [flashes, handles, hqueue]
    rfl
  exact ⟨l₁, _, t', hr.snoc ht', of_decide_eq_true hfile,
    upgrades_exact bootTest_boot (hr.snoc ht') hall rfl hflash ⟨rfl, fun _ => rfl⟩⟩

/-! ## A URL that is rejected -/

namespace Rejected

variable {s s₁ s' : HttpSession} {hops : List Hop}

end Rejected

end IntercomSalve
