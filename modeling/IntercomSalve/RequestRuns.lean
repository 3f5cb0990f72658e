/-
# `RequestRuns` — whatever the application calls

The application sets up the client, requests, and reads the body of a response, in
any order and as often as it likes (`HttpCall`).  Over every sequence of calls that
return, each request is answered by one call of `rspCb`, the last thing it does, and
nothing else is answered (`requests_answered`).  A call that does not return, as where
a redirection names a location and no line ends behind it, is not answered either.

And the client never has two sockets: one is created when there is none, connected
before anything is sent on it, and closed before the next; what it still holds at the
end is what `httpInfo.socketFd` says (`sockets_used`).  That takes `KING_SocketClose`
and `httpTls_close` to succeed, as `httpCloseSocket` does: where one gives -1, the source
keeps the socket open and puts the next one in its place.
-/
import IntercomSalve.Flashing
import IntercomSalve.Lib.Run
import IntercomSalve.RequestChain

namespace IntercomSalve

open CString HttpClient

/-! ## Answers -/

/-- A call of `rspCb`. -/
def HttpOut.isRspCb : HttpOut → Bool
  | .rspCb _ _ _ => true
  | _ => false

/-- Nothing is answered. -/
def Quiet (outs : List HttpOut) : Prop := ∀ o ∈ outs, o.isRspCb = false

theorem quiet_nil : Quiet [] := fun _ h => absurd h List.not_mem_nil

theorem quiet_cons {o : HttpOut} {outs : List HttpOut} (ho : o.isRspCb = false)
    (h : Quiet outs) : Quiet (o :: outs) := by
  intro o' hmem
  rcases List.mem_cons.mp hmem with rfl | hmem
  · exact ho
  · exact h o' hmem

theorem Quiet.append {outs outs' : List HttpOut} (h : Quiet outs) (h' : Quiet outs') :
    Quiet (outs ++ outs') := by
  intro o hmem
  rcases List.mem_append.mp hmem with hmem | hmem
  · exact h o hmem
  · exact h' o hmem

theorem Quiet.le {outs outs' : List HttpOut} (h : Quiet outs') (hpre : outs <+: outs') :
    Quiet outs := fun o hmem => h o (hpre.subset hmem)

theorem Quiet.count {outs : List HttpOut} (h : Quiet outs) : outs.countP HttpOut.isRspCb = 0 :=
  List.countP_eq_zero.mpr fun o hmem => by rw [h o hmem]; exact Bool.false_ne_true

theorem quiet_closing (fd : Int) : Quiet (closing fd) := by
  unfold closing
  split
  · exact quiet_nil
  · exact quiet_cons rfl quiet_nil

theorem quiet_leaving (fd fd' : Int) : Quiet (leaving fd fd') := by
  unfold leaving
  split
  · exact quiet_cons rfl quiet_nil
  · exact quiet_nil

theorem quiet_connecting (fd : Int) (new : Nat) (u : UriInfo) : Quiet (connecting fd new u) :=
  (quiet_closing fd).append (quiet_cons rfl (quiet_cons rfl quiet_nil))

theorem quiet_sending (fd : Int) (ps : List (List UInt8)) : Quiet (sending fd ps) := by
  intro o h
  obtain ⟨p, -, rfl⟩ := List.mem_map.mp h
  rfl

/-- What is done ends with the one answer in it. -/
def EndsInAnswer (outs : List HttpOut) : Prop :=
  ∃ before errCode code contentLen, outs = before ++ [.rspCb errCode code contentLen] ∧
    Quiet before

theorem Quiet.answer {before : List HttpOut} (h : Quiet before) (errCode : Nat) (code : Int)
    (contentLen : Nat) : EndsInAnswer (before ++ [.rspCb errCode code contentLen]) :=
  ⟨before, errCode, code, contentLen, rfl, h⟩

theorem EndsInAnswer.append {outs before : List HttpOut} (h : EndsInAnswer outs)
    (hpre : Quiet before) : EndsInAnswer (before ++ outs) := by
  obtain ⟨more, errCode, code, contentLen, rfl, hmore⟩ := h
  exact ⟨before ++ more, errCode, code, contentLen, (List.append_assoc _ _ _).symm,
    hpre.append hmore⟩

theorem EndsInAnswer.count {outs : List HttpOut} (h : EndsInAnswer outs) :
    outs.countP HttpOut.isRspCb = 1 := by
  obtain ⟨before, errCode, code, contentLen, rfl, hbefore⟩ := h
  rw [List.countP_append, hbefore.count]
  rfl

/-- **A chain of attempts is answered once, at its end.** -/
theorem Chain.answer {text : UriInfo → List UInt8 → Prop} {u : UriInfo} {fd fd' : Int}
    {outs : List HttpOut} (h : Chain text u fd outs fd') : EndsInAnswer outs := by
  induction h with
  | unresolved => exact quiet_nil.answer _ _ _
  | noSocket => exact (quiet_closing _).answer _ _ _
  | @unconnected u fd new errCode tried _ htried =>
      have hquiet : Quiet tried := (quiet_cons rfl quiet_nil).le htried
      have hend : EndsInAnswer (.socketCreate new ::
          (tried ++ [.socketClose new, .rspCb errCode 0 0])) :=
        (((quiet_cons rfl quiet_nil).answer errCode 0 0).append hquiet).append
          (quiet_cons rfl quiet_nil)
      exact hend.append (quiet_closing fd)
  | @unsent u fd new errCode t ps _ _ _ =>
      exact ((((quiet_cons rfl quiet_nil).answer errCode 0 0).append (quiet_sending _ _))).append
        (quiet_connecting _ _ _)
  | answered _ _ _ =>
      exact (((quiet_leaving _ _).answer _ _ _).append (quiet_sending _ _)).append
        (quiet_connecting _ _ _)
  | redirected _ _ _ _ _ ih =>
      exact (ih.append (quiet_sending _ _)).append (quiet_connecting _ _ _)

/-! ## Sockets -/

/-- The socket that is in use. -/
inductive SocketUse where
  | none
  | created (fd : Int)
  | connected (fd : Int)
  deriving DecidableEq

/-- What may be done with it; for what may not there is no result. -/
def useSocket : SocketUse → HttpOut → Option SocketUse
  | .none, .socketCreate fd => some (.created fd)
  | .created fd, .socketConnect fd' _ _ => if fd' = fd then some (.connected fd) else .none
  | .connected fd, .socketSend fd' _ => if fd' = fd then some (.connected fd) else .none
  | .created fd, .socketClose fd' => if fd' = fd then some .none else .none
  | .connected fd, .socketClose fd' => if fd' = fd then some .none else .none
  | w, .rspCb _ _ _ => some w
  | _, _ => .none

/-- What may be done one after the other. -/
def useSockets (w : SocketUse) (outs : List HttpOut) : Option SocketUse :=
  outs.foldlM useSocket w

/-- Between two requests: what `httpInfo.socketFd` says. -/
def socketOf (fd : Int) : SocketUse := if fd = -1 then .none else .connected fd

theorem useSockets_append {w w' : SocketUse} {outs : List HttpOut}
    (h : useSockets w outs = some w') (outs' : List HttpOut) :
    useSockets w (outs ++ outs') = useSockets w' outs' := by
  unfold useSockets at h ⊢
  rw [List.foldlM_append, h]
  rfl

theorem useSockets_closing (fd : Int) : useSockets (socketOf fd) (closing fd) = some .none := by
  unfold closing socketOf
  split
  · rfl
  · show (useSocket (.connected fd) (.socketClose fd)).bind some = _
    rw [useSocket, if_pos rfl]
    rfl

theorem useSockets_connecting (fd : Int) (new : Nat) (u : UriInfo) :
    useSockets (socketOf fd) (connecting fd new u) = some (.connected new) := by
  rw [connecting, useSockets_append (useSockets_closing fd)]
  show ((useSocket (.created new) (.socketConnect new _ _)).bind some) = _
  rw [useSocket, if_pos rfl]
  rfl

theorem useSockets_sending (fd : Int) (ps : List (List UInt8)) :
    useSockets (.connected fd) (sending fd ps) = some (.connected fd) := by
  induction ps with
  | nil => rfl
  | cons p ps ih =>
      show (useSocket (.connected fd) (.socketSend fd p)).bind
        (fun w => useSockets w (sending fd ps)) = _
      rw [useSocket, if_pos rfl]
      exact ih

@[simp] theorem useSocket_rspCb (w : SocketUse) (errCode : Nat) (code : Int)
    (contentLen : Nat) : useSocket w (.rspCb errCode code contentLen) = some w := by
  cases w <;> rfl

theorem useSockets_rspCb (w : SocketUse) (errCode : Nat) (code : Int) (contentLen : Nat) :
    useSockets w [.rspCb errCode code contentLen] = some w := by
  simp [useSockets]

/-- A socket is closed, and the request answered. -/
theorem useSockets_close {w : SocketUse} {fd : Int} (hw : w = .created fd ∨ w = .connected fd)
    (errCode : Nat) (code : Int) (contentLen : Nat) :
    useSockets w [.socketClose fd, .rspCb errCode code contentLen] = some (socketOf (-1)) := by
  rcases hw with rfl | rfl
  all_goals
    show ((if fd = fd then some SocketUse.none else .none).bind _) = _
    rw [if_pos rfl]
    rfl

theorem socketOf_new (new : Nat) : socketOf new = .connected new :=
  if_neg (HttpSession.natCast_ne_neg new)

/-- **One socket at a time**, from the one that is open to the one that stays. -/
theorem Chain.sockets {text : UriInfo → List UInt8 → Prop} {u : UriInfo} {fd fd' : Int}
    {outs : List HttpOut} (h : Chain text u fd outs fd') :
    useSockets (socketOf fd) outs = some (socketOf fd') := by
  induction h with
  | unresolved => exact useSockets_rspCb _ _ _ _
  | noSocket =>
      rw [useSockets_append (useSockets_closing _)]
      exact useSockets_rspCb _ _ _ _
  | @unconnected u fd new errCode tried _ htried =>
      rw [useSockets_append (useSockets_closing _)]
      show useSockets (.created new) (tried ++ _) = _
      cases tried with
      | nil => exact useSockets_close (.inl rfl) _ _ _
      | cons o tried =>
          obtain ⟨rfl, hnil⟩ := List.cons_prefix_cons.mp htried
          obtain rfl := List.prefix_nil.mp hnil
          show ((useSocket (.created new) (.socketConnect new _ _)).bind
            fun w => useSockets w [.socketClose new, .rspCb errCode 0 0]) = _
          rw [useSocket, if_pos rfl]
          exact useSockets_close (.inr rfl) _ _ _
  | unsent _ _ _ =>
      rw [useSockets_append (useSockets_connecting _ _ _),
        useSockets_append (useSockets_sending _ _)]
      exact useSockets_close (.inr rfl) _ _ _
  | @answered u fd fd' new errCode contentLen code t ps _ _ hfd =>
      rw [useSockets_append (useSockets_connecting _ _ _),
        useSockets_append (useSockets_sending _ _)]
      rcases hfd with rfl | rfl
      · rw [leaving, if_neg (HttpSession.natCast_ne_neg new), socketOf_new]
        exact useSockets_rspCb _ _ _ _
      · exact useSockets_close (.inr rfl) _ _ _
  | @redirected u u' fd fd' new t location ps outs _ _ _ _ _ ih =>
      rw [useSockets_append (useSockets_connecting _ _ _),
        useSockets_append (useSockets_sending _ _), ← socketOf_new]
      exact ih

/-! ## The calls -/

namespace HttpSession

/-- `http_readContentDataAndLen`, from the socket that is open. -/
def readContent (dataLen actualDataLen : Nat) (readEnd : Bool) (s : HttpSession) :
    Option (ReadContent × HttpSession) :=
  (s.http.httpReadContentDataAndLen dataLen actualDataLen readEnd s.sock).map fun r =>
    (r, { s.setHttp r.http with sock := r.sock })

end HttpSession

/-- The calls of the application. -/
inductive HttpCall where
  | init
  | urlParse (pUrl : List UInt8)
  | addHeaderKv (key value : List UInt8)
  | reqHeaderSet (reqHeader : Nat)
  | contentTypeSet (contentType : HttpContentType)
  | stateTypeSet (stateType : HttpStateType)
  | clearStatus
  | get (pHeaderStr : List UInt8) (hops : List Hop)
  | post (pData : List UInt8) (hops : List Hop)
  | readContent (dataLen : Nat)

/-- A call that is answered. -/
def HttpCall.isRequest : HttpCall → Bool
  | .get _ _ | .post _ _ => true
  | _ => false

/-- A call, and what the outside gives to it; one that does not return has no result. -/
def execHttp : HttpCall → HttpSession → Option HttpSession
  | .init, s => some s.httpInit
  | .urlParse pUrl, s => some (s.parseUrl pUrl).2
  | .addHeaderKv key value, s => (s.httpAddHeaderKv key value).map Prod.snd
  | .reqHeaderSet reqHeader, s => some (s.httpReqHeaderSet reqHeader)
  | .contentTypeSet contentType, s => some (s.httpContentTypeSet contentType)
  | .stateTypeSet stateType, s => some { s with http.stateType := stateType }
  | .clearStatus, s => some s.httpResetStatus
  | .get pHeaderStr hops, s => s.httpGet pHeaderStr hops
  | .post pData hops, s => s.httpPost pData hops
  | .readContent dataLen, s => (s.readContent dataLen 0 false).map Prod.snd

/-! ### Reading the body -/

/-- The socket stays, or there is none any more. -/
def KeepsOrCloses (h h' : HttpClient) : Prop := h'.socketFd = h.socketFd ∨ h'.socketFd = -1

theorem keepsOrCloses_readreceiveEnd (h : HttpClient) (k : Sock) (errcode : Nat) :
    KeepsOrCloses h (readreceiveEnd h k errcode).http := by
  unfold readreceiveEnd
  split
  · exact .inr rfl
  · exact .inl rfl

theorem keepsOrCloses_readreceiveLoop (dataLen : Nat) :
    ∀ (fuel recvCnt : Nat) (h : HttpClient) (k : Sock) (r : ReadRsp),
      readreceiveLoop dataLen fuel recvCnt h k = some r → KeepsOrCloses h r.http
  | 0, _, _, _, _, hr => by
      unfold readreceiveLoop at hr
      exact absurd hr (by simp)
  | fuel + 1, recvCnt, h, k, r, hr => by
      have hend {h' : HttpClient} {k' : Sock} {errcode : Nat}
          (he : some (readreceiveEnd h' k' errcode) = some r) (hfd : h'.socketFd = h.socketFd) :
          KeepsOrCloses h r.http := by
        obtain rfl := Option.some.inj he
        rw [KeepsOrCloses, ← hfd]
        exact keepsOrCloses_readreceiveEnd h' k' errcode
      have hreset {h' : HttpClient} {k' : Sock} {size : Nat} (he : some ({
          ret := 0
          realSize := size
          http := HttpClient.httpResetStatus h'
          sock := k' } : ReadRsp) = some r) : KeepsOrCloses h r.http := by
        obtain rfl := Option.some.inj he
        exact .inr rfl
      unfold readreceiveLoop at hr
      split at hr
      · exact hend hr rfl
      · split at hr
        · exact hend hr rfl
        · dsimp only at hr
          split at hr
          · split at hr
            · exact hend hr rfl
            · exact hend hr rfl
            · exact hend hr rfl
            · split at hr
              · exact hreset hr
              · exact hend hr rfl
          · next bs k' _ =>
            have happ := sameLink_appendRsp h bs bs.length
            split at hr
            · exact hend hr happ.socketFd
            · split at hr
              · exact hreset hr
              · have hgo := keepsOrCloses_readreceiveLoop dataLen fuel _ _ k' r hr
                rwa [KeepsOrCloses, happ.socketFd] at hgo

theorem readContentEnd_socketFd (readLen : Nat) (pData : Mem) (actualDataLen : Nat)
    (readEnd : Bool) (r : ReadRsp) :
    (readContentEnd readLen pData actualDataLen readEnd r).http.socketFd = r.http.socketFd := by
  unfold readContentEnd
  split
  · rfl
  · split <;> rfl

theorem keepsOrCloses_readContent {dataLen actualDataLen : Nat} {readEnd : Bool} {h : HttpClient}
    {k : Sock} {r : ReadContent}
    (hr : h.httpReadContentDataAndLen dataLen actualDataLen readEnd k = some r) :
    KeepsOrCloses h r.http := by
  unfold httpReadContentDataAndLen at hr
  split at hr
  · obtain rfl := Option.some.inj hr
    exact .inl rfl
  · dsimp only at hr
    split at hr
    · obtain rfl := Option.some.inj hr
      exact .inl rfl
    · split at hr
      · obtain rfl := Option.some.inj hr
        exact .inr rfl
      · obtain ⟨o, ho, rfl⟩ := Option.map_eq_some_iff.mp hr
        have hkeep := keepsOrCloses_readreceiveLoop _ _ _ _ _ o ho
        rw [KeepsOrCloses, readContentEnd_socketFd]
        revert hkeep
        unfold KeepsOrCloses
        dsimp only
        split <;> exact id

/-! ### One call -/

/-- What a call does outside: a request ends with its answer, another call answers nothing, and
the socket is used as it may be. -/
structure CallDoes (c : HttpCall) (outs : List HttpOut) (s s' : HttpSession) : Prop where
  out : s'.out = s.out ++ outs
  answer : if c.isRequest then EndsInAnswer outs else Quiet outs
  sockets : useSockets (socketOf s.http.socketFd) outs = some (socketOf s'.http.socketFd)
  inited : s'.isHttpInited = true

/-- A call that only sets something. -/
theorem callDoes_set {c : HttpCall} {s s' : HttpSession} (hc : c.isRequest = false)
    (hout : s'.out = s.out) (hfd : s'.http.socketFd = s.http.socketFd)
    (hinit : s'.isHttpInited = true) : ∃ outs, CallDoes c outs s s' := by
  refine ⟨[], hout.trans (List.append_nil _).symm, ?_, by rw [hfd]; rfl, hinit⟩
  rw [hc]
  exact quiet_nil

theorem callDoes_request {c : HttpCall} {text : UriInfo → List UInt8 → Prop} {s s' : HttpSession}
    (hc : c.isRequest = true) (hinit : s.isHttpInited = true)
    (h : HttpSession.Requests text s s') : ∃ outs, CallDoes c outs s s' := by
  rcases h with ⟨⟨errCode, -, hout⟩, hfd, hsame, -⟩ | ⟨outs, hout, hchain, hrest, -⟩
  · refine ⟨_, hout, ?_, by rw [hfd]; exact useSockets_rspCb _ _ _ _, hsame.trans hinit⟩
    rw [hc]
    exact quiet_nil.answer errCode 0 0
  · refine ⟨outs, hout, ?_, hchain.sockets, hrest.inited⟩
    rw [hc]
    exact hchain.answer

theorem callDoes_setHttp {c : HttpCall} {s s' : HttpSession} {h : HttpClient}
    (hc : c.isRequest = false) (hinit : s.isHttpInited = true)
    (hkeep : KeepsOrCloses s.http h) (hs' : s'.out = (s.setHttp h).out)
    (hfd : s'.http.socketFd = h.socketFd) (hinited : s'.isHttpInited = s.isHttpInited) :
    ∃ outs, CallDoes c outs s s' := by
  by_cases hclose : s.http.socketFd ≠ -1 ∧ h.socketFd = -1
  · refine ⟨[.socketClose s.http.socketFd], ?_, ?_, ?_, hinited.trans hinit⟩
    · rw [hs']
      show s.out ++ (if s.http.socketFd ≠ -1 ∧ h.socketFd = -1 then _ else []) = _
      rw [if_pos hclose]
    · rw [hc]
      exact quiet_cons rfl quiet_nil
    · have hcl : closing s.http.socketFd = [.socketClose s.http.socketFd] := if_neg hclose.1
      rw [hfd, hclose.2, ← hcl]
      exact useSockets_closing _
  · have hsame : h.socketFd = s.http.socketFd := by
      rcases hkeep with hk | hk
      · exact hk
      · rw [hk]
        by_contra hne
        exact hclose ⟨fun he => hne he.symm, hk⟩
    refine callDoes_set hc ?_ (hfd.trans hsame) (hinited.trans hinit)
    rw [hs']
    show s.out ++ (if s.http.socketFd ≠ -1 ∧ h.socketFd = -1 then _ else []) = _
    rw [if_neg hclose, List.append_nil]

theorem socketFd_httpClearBuf (h : HttpClient) : h.httpClearBuf.socketFd = h.socketFd := by
  unfold httpClearBuf
  split <;> rfl

/-- **One call**, whichever it is. -/
theorem callDoes_exec {c : HttpCall} {s s' : HttpSession} (hinit : s.isHttpInited = true)
    (h : execHttp c s = some s') : ∃ outs, CallDoes c outs s s' := by
  cases c with
  | init =>
      obtain rfl := Option.some.inj h
      have heq : s.httpInit = { s.httpUrlClear with
          http := s.http.httpClearBuf
          header := []
          reqHeaderKv := Vector.replicate httpHeaderKvMax ⟨[], []⟩ } := by
        unfold HttpSession.httpInit
        rw [if_pos hinit]
        rfl
      rw [heq]
      exact callDoes_set rfl rfl (socketFd_httpClearBuf s.http) hinit
  | urlParse pUrl =>
      obtain rfl := Option.some.inj h
      rw [HttpSession.parseUrl_eq hinit]
      exact callDoes_set rfl rfl rfl (HttpSession.httpUrlParse_inited _ _ hinit)
  | addHeaderKv key value =>
      obtain ⟨⟨ret, s₁⟩, hadd, rfl⟩ := Option.map_eq_some_iff.mp h
      unfold HttpSession.httpAddHeaderKv at hadd
      split at hadd
      · obtain ⟨-, rfl⟩ := Prod.mk.inj (Option.some.inj hadd)
        exact callDoes_set rfl rfl rfl hinit
      · split at hadd
        · obtain ⟨-, rfl⟩ := Prod.mk.inj (Option.some.inj hadd)
          exact callDoes_set rfl rfl rfl hinit
        · exact absurd hadd (by simp)
  | reqHeaderSet reqHeader =>
      obtain rfl := Option.some.inj h
      exact callDoes_set rfl rfl rfl hinit
  | contentTypeSet contentType =>
      obtain rfl := Option.some.inj h
      exact callDoes_set rfl rfl rfl hinit
  | stateTypeSet stateType =>
      obtain rfl := Option.some.inj h
      exact callDoes_set rfl rfl rfl hinit
  | clearStatus =>
      obtain rfl := Option.some.inj h
      exact callDoes_setHttp rfl hinit (.inr rfl) rfl rfl rfl
  | get pHeaderStr hops =>
      exact callDoes_request rfl hinit (HttpSession.httpGet_requests hinit h)
  | post pData hops =>
      exact callDoes_request rfl hinit (HttpSession.httpPost_requests hinit h)
  | readContent dataLen =>
      obtain ⟨⟨r, s₁⟩, hread, rfl⟩ := Option.map_eq_some_iff.mp h
      obtain ⟨r, hr, heq⟩ := Option.map_eq_some_iff.mp hread
      obtain ⟨rfl, rfl⟩ := Prod.mk.inj heq
      exact callDoes_setHttp rfl hinit (keepsOrCloses_readContent hr) rfl rfl rfl

/-! ### Every sequence of calls -/

/-- The client behind its first `http_init`. -/
def freshSession : HttpSession where
  http := { idleClient with stateType := .none }
  isHttpInited := true
  urlInfo := ⟨none, none, none, 80, false⟩
  contentType := .applicationUrlencoded
  reqHeader := 0
  reqHeaderKv := Vector.replicate httpHeaderKvMax ⟨[], []⟩
  header := []
  pHttpTxBuf := []
  sendTotalLen := 0
  unsendLen := 0
  sock := { segments := [], ending := .closed }
  out := []

/-- An attempt on the socket `fd` that gets a response, with its text taken in two pieces. -/
def servedHop (fd : Nat) (response : List UInt8) : Hop where
  resolved := true
  socketFd := some fd
  bound := true
  createReach := false
  connected := true
  connectReach := false
  tlsConnected := true
  txBuf := true
  sends := [⟨some 50, false⟩, ⟨some 2048, false⟩, ⟨none, false⟩]
  sendReach := false
  sock := { segments := [response], ending := .closed }
  location := true

/-- `http://a/` and `http://b/`. -/
def urlA : List UInt8 := httpScheme ++ ascii ['a', '/']
def urlB : List UInt8 := httpScheme ++ ascii ['b', '/']

/-- `HTTP/1.1 302`, with the location `http://b/`. -/
def foundResponse : List UInt8 :=
  http11 ++ [32, 51, 48, 50, 13, 10] ++ HttpSession.locationName ++ [32] ++ urlB ++ headerEnd

/-- A field is added, the URL is requested, the server sends the client on to another one, and the
body of the response there, of three bytes, is read. -/
def redirectedGet : List HttpCall :=
  [.urlParse urlA, .addHeaderKv (ascii ['K']) (ascii ['v']),
    .get [] [servedHop 4 foundResponse, servedHop 5 (okHeader [51] ++ [1, 2, 3])], .readContent 8]

section Runs

variable {s s' : HttpSession} {l : List (Run.Step HttpCall HttpSession)}

/-- Every step of a run does what a call does. -/
theorem runs_callDoes (hinit : s.isHttpInited = true) (hr : Run.Runs execHttp s l s') :
    s'.isHttpInited = true ∧ ∀ e ∈ l, ∃ outs, CallDoes e.act outs e.pre e.post := by
  obtain ⟨hs', hsteps⟩ := hr.invariant (I := fun s => s.isHttpInited = true)
    (P := fun _ => True) hinit (fun y a z hy he _ => (callDoes_exec hy he).choose_spec.inited)
    fun _ _ => trivial
  exact ⟨hs', fun e he => callDoes_exec (hsteps e he).1 (hsteps e he).2⟩

/-- **Every request is answered once.**  In any sequence of calls that return, however the outside
treats the requests, `rspCb` is called once in each call of `http_get` or `http_post`, after
everything else, and in no other call. -/
theorem requests_answered (hinit : s.isHttpInited = true) (hr : Run.Runs execHttp s l s') :
    (∀ e ∈ l, ∃ outs, e.post.out = e.pre.out ++ outs ∧
      if e.act.isRequest then EndsInAnswer outs else Quiet outs) ∧
    s'.out.countP HttpOut.isRspCb
      = s.out.countP HttpOut.isRspCb + l.countP fun e => e.act.isRequest := by
  refine ⟨fun e he => ?_, ?_⟩
  · obtain ⟨outs, hd⟩ := (runs_callDoes hinit hr).2 e he
    exact ⟨outs, hd.out, hd.answer⟩
  · induction hr with
    | nil => rfl
    | @snoc l y z a hr he ih =>
        obtain ⟨outs, hd⟩ := callDoes_exec (runs_callDoes hinit hr).1 he
        rw [hd.out, List.countP_append, ih, List.countP_append, Nat.add_assoc]
        congr 2
        have hanswer := hd.answer
        cases ha : a.isRequest with
        | true =>
            rw [if_pos ha] at hanswer
            rw [hanswer.count]
            simp [ha]
        | false =>
            have hno : ¬ a.isRequest = true := by rw [ha]; exact Bool.false_ne_true
            rw [if_neg hno] at hanswer
            rw [hanswer.count]
            simp [ha]

theorem redirectedGet_answered :
    ∃ l s', Run.Runs execHttp freshSession l s' ∧ s'.out.countP HttpOut.isRspCb = 1 ∧
      (∀ e ∈ l, ∃ outs, e.post.out = e.pre.out ++ outs ∧
        if e.act.isRequest then EndsInAnswer outs else Quiet outs) := by
  obtain ⟨l, s', hr, htest⟩ : ∃ l s', Run.Runs execHttp freshSession l s' ∧
      (l.countP (fun e => e.act.isRequest) == 1) = true :=
    Run.Runs.of_trace_test (l := redirectedGet)
      (q := fun (l : List (Run.Step HttpCall HttpSession)) _ =>
        l.countP (fun e => e.act.isRequest) == 1) (by decide +kernel)
  obtain ⟨heach, hcount⟩ := requests_answered rfl hr
  refine ⟨l, s', hr, ?_, heach⟩
  rw [hcount, beq_iff_eq.mp htest]
  rfl

/-- **One socket at a time.**  From a client without a socket on, whatever is called and whatever
fails but the closing of a socket, a socket is created only when there is none, connected once
before anything is sent on it, and closed at most once and before the next is created; and the
one that is left is in `httpInfo.socketFd`. -/
theorem sockets_used (hinit : s.isHttpInited = true) (hfd : s.http.socketFd = -1)
    (hout : s.out = []) (hr : Run.Runs execHttp s l s') :
    useSockets .none s'.out = some (socketOf s'.http.socketFd) := by
  induction hr with
  | nil =>
      rw [hout, hfd]
      rfl
  | @snoc l y z a hr he ih =>
      obtain ⟨outs, hd⟩ := callDoes_exec (runs_callDoes hinit hr).1 he
      rw [hd.out, useSockets_append ih]
      exact hd.sockets

theorem redirectedGet_sockets :
    ∃ l s', Run.Runs execHttp freshSession l s' ∧ .socketConnect 5 (ascii ['b']) 80 ∈ s'.out ∧
      useSockets .none s'.out = some (socketOf s'.http.socketFd) := by
  obtain ⟨l, s', hr, htest⟩ : ∃ l s', Run.Runs execHttp freshSession l s' ∧
      decide (.socketConnect 5 (ascii ['b']) 80 ∈ s'.out) = true :=
    Run.Runs.of_trace_test (l := redirectedGet)
      (q := fun _ (s' : HttpSession) => decide (.socketConnect 5 (ascii ['b']) 80 ∈ s'.out))
      (by decide +kernel)
  exact ⟨l, s', hr, of_decide_eq_true htest, sockets_used rfl rfl rfl hr⟩

end Runs

end IntercomSalve
