/-
# `RequestChain` — what a request does, seen from outside

A request is a chain of attempts.  An attempt closes the socket that is still open,
creates one, connects it to the host of the URL and sends the text of the request; a
redirection is followed by another attempt, to another URL, and whatever else happens
ends the chain with one call of `rspCb` (`Chain`).

The client behaves so for any number of attempts, whatever the outside does to each
of them and however the socket takes the text in pieces (`endsAs_attempts`).
-/
import IntercomSalve.HttpRequest
import IntercomSalve.ReceiveEnds

namespace IntercomSalve

open CString HttpClient

/-! ## Chains of attempts -/

/-- A socket that is open is closed. -/
def closing (fd : Int) : List HttpOut := if fd = -1 then [] else [.socketClose fd]

/-- A socket is created in place of `fd` and connected to the host of a URL. -/
def connecting (fd : Int) (new : Nat) (u : UriInfo) : List HttpOut :=
  closing fd ++ [.socketCreate new, .socketConnect new (u.host.getD []) u.port]

/-- Pieces of a text are sent. -/
def sending (fd : Int) (ps : List (List UInt8)) : List HttpOut := ps.map (.socketSend fd)

/-- A socket is closed, if it does not stay. -/
def leaving (fd fd' : Int) : List HttpOut := if fd' = -1 then [.socketClose fd] else []

/-- `u` is what `http_urlParse` makes of a location. -/
def ParsedFrom (location : List UInt8) (u : UriInfo) : Prop :=
  ∃ p, (httpUrlParse ⟨true, true, true⟩ (some location) p).1 = 0 ∧
    (httpUrlParse ⟨true, true, true⟩ (some location) p).2.urlInfo = u

/-- The URL `u` after any calls of `http_urlParse`. -/
inductive UrlFrom (u : UriInfo) : UriInfo → Prop
  | same : UrlFrom u u
  | parsed {p : UrlParser} (pUrl : List UInt8) : UrlFrom u p.urlInfo →
      UrlFrom u (httpUrlParse ⟨true, true, true⟩ (some pUrl) p).2.urlInfo

theorem UrlFrom.trans {u₁ u₂ u₃ : UriInfo} (h12 : UrlFrom u₁ u₂) (h23 : UrlFrom u₂ u₃) :
    UrlFrom u₁ u₃ := by
  induction h23 with
  | same => exact h12
  | parsed pUrl _ ih => exact .parsed pUrl ih

/-- What a request to a URL does outside, from one open socket (or none) to another, where
`text` says which texts are requests to a URL. -/
inductive Chain (text : UriInfo → List UInt8 → Prop) :
    UriInfo → Int → List HttpOut → Int → Prop
  /-- The name is not resolved. -/
  | unresolved {u : UriInfo} {fd : Int} : Chain text u fd [.rspCb httpDnsErr 0 0] fd
  /-- There is no socket. -/
  | noSocket {u : UriInfo} {fd : Int} :
      Chain text u fd (closing fd ++ [.rspCb httpSockCreateErr 0 0]) (-1)
  /-- The socket is not bound, or not connected, or not in time. -/
  | unconnected {u : UriInfo} {fd : Int} {new errCode : Nat} {tried : List HttpOut} :
      errCode ≠ 0 → tried <+: [.socketConnect new (u.host.getD []) u.port] →
      Chain text u fd
        (closing fd ++ (.socketCreate new :: (tried ++ [.socketClose new, .rspCb errCode 0 0])))
        (-1)
  /-- The text is not sent, or not all of it, or not in time. -/
  | unsent {u : UriInfo} {fd : Int} {new errCode : Nat} {t : List UInt8}
      {ps : List (List UInt8)} : errCode ≠ 0 → text u t → ps.flatten <+: t →
      Chain text u fd
        (connecting fd new u ++ (sending new ps ++ [.socketClose new, .rspCb errCode 0 0])) (-1)
  /-- It is sent, and the request is answered, by the server or because of an error. -/
  | answered {u : UriInfo} {fd fd' : Int} {new errCode contentLen : Nat} {code : Int}
      {t : List UInt8} {ps : List (List UInt8)} : text u t → ps.flatten = t →
      (fd' = new ∨ fd' = -1) →
      Chain text u fd
        (connecting fd new u ++
          (sending new ps ++ (leaving new fd' ++ [.rspCb errCode code contentLen]))) fd'
  /-- It is sent, and the server names another URL. -/
  | redirected {u u' : UriInfo} {fd fd' : Int} {new : Nat} {t location : List UInt8}
      {ps : List (List UInt8)} {outs : List HttpOut} : text u t → ps.flatten = t →
      some location ≠ u.url → ParsedFrom location u' → Chain text u' new outs fd' →
      Chain text u fd (connecting fd new u ++ (sending new ps ++ outs)) fd'

/-- Texts of another kind, to URLs of which `G` holds. -/
theorem Chain.mono {text text' : UriInfo → List UInt8 → Prop} {G : UriInfo → Prop}
    (hgood : ∀ location u, ParsedFrom location u → G u)
    (hmono : ∀ u t, G u → text u t → text' u t) {u : UriInfo} {fd fd' : Int}
    {outs : List HttpOut} (hu : G u) (h : Chain text u fd outs fd') :
    Chain text' u fd outs fd' := by
  induction h with
  | unresolved => exact .unresolved
  | noSocket => exact .noSocket
  | unconnected herr htried => exact .unconnected herr htried
  | unsent herr ht hps => exact .unsent herr (hmono _ _ hu ht) hps
  | answered ht hps hfd => exact .answered (hmono _ _ hu ht) hps hfd
  | redirected ht hps hne hparsed _ ih =>
      exact .redirected (hmono _ _ hu ht) hps hne hparsed (ih (hgood _ _ hparsed))

namespace HttpSession

/-! ## What stays the same -/

/-- What a request keeps from one attempt to the next. -/
structure SameRequest (s s' : HttpSession) : Prop where
  inited : s'.isHttpInited = s.isHttpInited
  actionType : s'.http.actionType = s.http.actionType
  readCurLen : s'.http.readCurLen = s.http.readCurLen
  reqHeader : s'.reqHeader = s.reqHeader
  contentType : s'.contentType = s.contentType
  reqHeaderKv : s'.reqHeaderKv = s.reqHeaderKv
  /-- the data that is posted may have a header of its own -/
  header : s.http.actionType = .get → s'.header = s.header
  pBody : s.http.pBody.isSome → s'.http.pBody.isSome

theorem SameRequest.refl (s : HttpSession) : SameRequest s s :=
  ⟨rfl, rfl, rfl, rfl, rfl, rfl, fun _ => rfl, id⟩

theorem SameRequest.trans {s₁ s₂ s₃ : HttpSession} (h12 : SameRequest s₁ s₂)
    (h23 : SameRequest s₂ s₃) : SameRequest s₁ s₃ :=
  ⟨h23.inited.trans h12.inited, h23.actionType.trans h12.actionType,
    h23.readCurLen.trans h12.readCurLen,
    h23.reqHeader.trans h12.reqHeader, h23.contentType.trans h12.contentType,
    h23.reqHeaderKv.trans h12.reqHeaderKv,
    fun hget => (h23.header (h12.actionType.trans hget)).trans (h12.header hget),
    fun hb => h23.pBody (h12.pBody hb)⟩

/-- A text that an attempt of the request sends to a URL. -/
def IsText (s : HttpSession) (u : UriInfo) (t : List UInt8) : Prop :=
  ∃ s', SameRequest s s' ∧ s'.urlInfo = u ∧ s'.httpConstructRequestPack.pHttpTxBuf = t

theorem SameRequest.isText {s s' : HttpSession} (h : SameRequest s s') :
    s.IsText s'.urlInfo s'.httpConstructRequestPack.pHttpTxBuf := ⟨s', h, rfl, rfl⟩

theorem pack_get {s : HttpSession} (hget : s.http.actionType = .get) :
    s.httpConstructRequestPack.pHttpTxBuf =
      (if s.reqHeader = 0 then s.requestLines else []) ++
        (if s.reqHeader = 1 then s.header else []) ++ crlf := by
  unfold httpConstructRequestPack
  simp only [hget, if_true, reduceCtorEq, if_false]
  by_cases h1 : s.reqHeader = 1
  · rw [if_pos h1, if_pos h1]
  · rw [if_neg h1, if_neg h1, List.append_nil]

/-! ## Sending -/

/-- The state in which the send loop ends, with these pieces sent. -/
def sentState (s : HttpSession) (ps : List (List UInt8)) (reach : Bool) : HttpSession :=
  { s with out := s.out ++ sending s.http.socketFd ps, http.rspReach := reach }.dropTxBuf

/-- What is left of the text. -/
def unsent (s : HttpSession) : List UInt8 := s.pHttpTxBuf.drop (s.sendTotalLen - s.unsendLen)

/-- **The send loop**: however much each call takes, the pieces are a beginning of what is left
of the text, and all of it if the loop returns 0. -/
theorem sendLoop_spec :
    ∀ (cs : List SendCall) (s : HttpSession) (ret : Int) (s' : HttpSession),
      s.sendTotalLen = s.pHttpTxBuf.length → s.unsendLen ≤ s.sendTotalLen →
      sendLoop cs s = some (ret, s') →
      ∃ ps reach, s' = s.sentState ps reach ∧
        (ret = 0 ∧ ps.flatten = s.unsent ∨ ret = -1 ∧ ps.flatten <+: s.unsent)
  | [], _, _, _, _, _, h => by simp [sendLoop] at h
  | c :: cs, s, ret, s', htotal, hle, h => by
      unfold sendLoop at h
      cases htakes : c.takes with
      | none =>
          rw [htakes] at h
          obtain ⟨rfl, rfl⟩ := Prod.mk.inj (Option.some.inj h)
          refine ⟨[], s.http.rspReach || c.rspReach, ?_, .inr ⟨rfl, List.nil_prefix⟩⟩
          simp [sentState, sending, tick]
      | some n =>
          rw [htakes] at h
          dsimp only at h
          have hlen : s.unsent.length = s.unsendLen := by
            rw [unsent, List.length_drop, ← htotal]
            omega
          have hsent : ((s.pHttpTxBuf.drop (s.sendTotalLen - s.unsendLen)).take
              (min n s.unsendLen)).length = min n s.unsendLen := by
            have := s.unsent.length_take (i := min n s.unsendLen)
            rw [hlen, Nat.min_eq_left (Nat.min_le_right _ _)] at this
            exact this
          by_cases hreach : (s.http.rspReach || c.rspReach) = true
          · rw [if_pos (show ((s.emit _).tick c.rspReach).http.rspReach = true from hreach)] at h
            obtain ⟨rfl, rfl⟩ := Prod.mk.inj (Option.some.inj h)
            refine ⟨[s.unsent.take (min n s.unsendLen)], true, ?_, .inr ⟨rfl, ?_⟩⟩
            · simp [sentState, sending, tick, emit, unsent, hreach]
            · rw [List.flatten_singleton]
              exact List.take_prefix _ _
          · rw [if_neg (show ¬ ((s.emit _).tick c.rspReach).http.rspReach = true from hreach),
              hsent] at h
            obtain ⟨piece, hpiece⟩ : ∃ piece, piece = s.unsent.take (min n s.unsendLen) := ⟨_, rfl⟩
            obtain ⟨s₁, hs₁⟩ : ∃ s₁ : HttpSession, s₁ = { (s.emit (.socketSend s.http.socketFd
                piece)).tick c.rspReach with unsendLen := s.unsendLen - min n s.unsendLen } :=
              ⟨_, rfl⟩
            have hrest : s₁.unsent = s.unsent.drop (min n s.unsendLen) := by
              rw [hs₁, unsent, unsent, List.drop_drop]
              show s.pHttpTxBuf.drop _ = _
              congr 1
              show s.sendTotalLen - (s.unsendLen - min n s.unsendLen) = _
              omega
            have hstate (ps : List (List UInt8)) (reach : Bool) :
                s₁.sentState ps reach = s.sentState (piece :: ps) reach := by
              rw [hs₁]
              simp [sentState, sending, tick, emit, dropTxBuf]
            have hflat (ps : List (List UInt8)) : (piece :: ps).flatten = piece ++ ps.flatten :=
              List.flatten_cons
            have hwhole : piece ++ s₁.unsent = s.unsent := by
              rw [hrest, hpiece, List.take_append_drop]
            replace h : (if s₁.unsendLen = 0 then some (0, s₁.dropTxBuf) else sendLoop cs s₁)
                = some (ret, s') := by
              rw [hs₁, hpiece]
              exact h
            split at h
            · next h0 =>
              obtain ⟨rfl, rfl⟩ := Prod.mk.inj (Option.some.inj h)
              refine ⟨[piece], s₁.http.rspReach, ?_, .inl ⟨rfl, ?_⟩⟩
              · rw [hs₁]
                rfl
              · have hnil : s₁.unsent = [] := by
                  refine List.drop_eq_nil_of_le ?_
                  rw [h0, hs₁]
                  show s.pHttpTxBuf.length ≤ s.sendTotalLen - 0
                  omega
                rw [hflat, List.flatten_nil, ← hnil, hwhole]
            · have htotal₁ : s₁.sendTotalLen = s₁.pHttpTxBuf.length := by
                rw [hs₁]
                exact htotal
              have hle₁ : s₁.unsendLen ≤ s₁.sendTotalLen := by
                rw [hs₁]
                exact (Nat.sub_le _ _).trans hle
              obtain ⟨ps, reach, hs', hends⟩ := sendLoop_spec cs s₁ ret s' htotal₁ hle₁ h
              refine ⟨piece :: ps, reach, hs'.trans (hstate ps reach), ?_⟩
              rw [hflat, ← hwhole]
              rcases hends with ⟨hret, hall⟩ | ⟨hret, hpart⟩
              · exact .inl ⟨hret, by rw [hall]⟩
              · exact .inr ⟨hret, (List.prefix_append_right_inj piece).mpr hpart⟩

/-- What writing the request leaves alone. -/
structure Written (s s' : HttpSession) : Prop where
  same : SameRequest s s'
  out : s'.out = s.out
  urlInfo : s'.urlInfo = s.urlInfo
  socketFd : s'.http.socketFd = s.http.socketFd
  rspReach : s'.http.rspReach = s.http.rspReach

theorem written_parsePostData {s : HttpSession} (hget : s.http.actionType ≠ .get) :
    Written s s.httpParsePostData := by
  have hself : Written s s := ⟨.refl s, rfl, rfl, rfl, rfl⟩
  have hheader {hd : List UInt8} : s.http.actionType = .get → hd = s.header :=
    fun h => absurd h hget
  unfold httpParsePostData
  split
  · exact hself
  · split
    · exact hself
    · split
      · exact hself
      · dsimp only
        split
        · exact ⟨⟨rfl, rfl, rfl, rfl, rfl, rfl, hheader, id⟩, rfl, rfl, rfl, rfl⟩
        · exact ⟨⟨rfl, rfl, rfl, rfl, rfl, rfl, hheader, fun _ => rfl⟩, rfl, rfl, rfl, rfl⟩

theorem written_pack (s : HttpSession) : Written s s.httpConstructRequestPack := by
  unfold httpConstructRequestPack
  by_cases hget : s.http.actionType = .get
  · simp only [hget, if_true]
    exact ⟨⟨rfl, hget.symm ▸ rfl, rfl, rfl, rfl, rfl, fun _ => rfl, id⟩, rfl, rfl, rfl, rfl⟩
  · simp only [hget, if_false]
    split
    · have hw := written_parsePostData hget
      exact ⟨⟨hw.same.inited, hw.same.actionType, hw.same.readCurLen, hw.same.reqHeader,
        hw.same.contentType, hw.same.reqHeaderKv, hw.same.header, hw.same.pBody⟩, hw.out,
        hw.urlInfo, hw.socketFd, hw.rspReach⟩
    · exact ⟨⟨rfl, rfl, rfl, rfl, rfl, rfl, fun _ => rfl, id⟩, rfl, rfl, rfl, rfl⟩

theorem pack_lengths (s : HttpSession) :
    s.httpConstructRequestPack.sendTotalLen = s.httpConstructRequestPack.pHttpTxBuf.length ∧
      s.httpConstructRequestPack.unsendLen = s.httpConstructRequestPack.sendTotalLen :=
  ⟨rfl, rfl⟩

/-- There is always the empty line. -/
theorem pack_ne_nil (s : HttpSession) : s.httpConstructRequestPack.pHttpTxBuf ≠ [] := by
  have hcrlf (t : List UInt8) : t ++ crlf ≠ [] :=
    List.append_ne_nil_of_right_ne_nil _ (List.cons_ne_nil _ _)
  have hall (r : List UInt8 × HttpSession) : (if r.2.http.actionType = .post then
      r.1 ++ crlf ++ r.2.body else r.1 ++ crlf) ≠ [] := by
    split
    · exact List.append_ne_nil_of_left_ne_nil (hcrlf _) _
    · exact hcrlf _
  exact hall _

/-- **Sending** a request that has been written. -/
theorem sendRequestPack_spec {cs : List SendCall} {s s' : HttpSession} {ret : Int}
    (hfd : s.http.socketFd ≠ -1)
    (h : s.httpConstructRequestPack.httpSendRequestPack cs = some (ret, s')) :
    ∃ ps reach, s' = s.httpConstructRequestPack.sentState ps reach ∧
      (ret = 0 ∧ ps.flatten = s.httpConstructRequestPack.pHttpTxBuf ∨
        ret = -1 ∧ ps.flatten <+: s.httpConstructRequestPack.pHttpTxBuf) := by
  obtain ⟨htotal, hunsend⟩ := s.pack_lengths
  have hpos := List.length_pos_iff.mpr s.pack_ne_nil
  have hall : s.httpConstructRequestPack.unsent = s.httpConstructRequestPack.pHttpTxBuf := by
    rw [unsent, hunsend, Nat.sub_self, List.drop_zero]
  have hopen : ¬ (s.httpConstructRequestPack.http.socketFd = -1 ∨
      s.httpConstructRequestPack.unsendLen = 0) := by
    rw [s.written_pack.socketFd, hunsend, htotal]
    omega
  rw [httpSendRequestPack, if_neg hopen] at h
  have hspec := sendLoop_spec cs _ ret s' htotal (Nat.le_of_eq hunsend) h
  rwa [hall] at hspec

/-! ## How a request ends -/

/-- The client waits for the next request. -/
structure AtRest (s : HttpSession) : Prop where
  isRunning : s.http.isRunning = false
  stateType : s.http.stateType = .urlReady
  inited : s.isHttpInited = true

/-- What every request keeps. -/
def Kept (s s' : HttpSession) : Prop :=
  s'.reqHeaderKv = s.reqHeaderKv ∧ UrlFrom s.urlInfo s'.urlInfo

theorem Kept.trans {s₁ s₂ s₃ : HttpSession} (h12 : Kept s₁ s₂) (h23 : Kept s₂ s₃) : Kept s₁ s₃ :=
  ⟨h23.1.trans h12.1, h12.2.trans h23.2⟩

theorem SameRequest.kept {s s' : HttpSession} (h : SameRequest s s') (hu : s'.urlInfo = s.urlInfo) :
    Kept s s' :=
  ⟨h.reqHeaderKv, hu ▸ .same⟩

/-- From `s` on, the client does something outside of which `P` holds, with the socket it is left
with, and is at rest. -/
def EndsAs (P : List HttpOut → Int → Prop) (s s' : HttpSession) : Prop :=
  ∃ outs, s'.out = s.out ++ outs ∧ P outs s'.http.socketFd ∧ s'.AtRest ∧ Kept s s'

theorem EndsAs.prepend {P Q : List HttpOut → Int → Prop} {s s₁ s' : HttpSession}
    {pre : List HttpOut} (hkept : Kept s s₁) (hout : s₁.out = s.out ++ pre) (h : EndsAs P s₁ s')
    (hQ : ∀ outs fd', P outs fd' → Q (pre ++ outs) fd') : EndsAs Q s s' := by
  obtain ⟨outs, ho, hP, hrest, hkept'⟩ := h
  exact ⟨pre ++ outs, by rw [ho, hout, List.append_assoc], hQ outs _ hP, hrest,
    hkept.trans hkept'⟩

/-- What may follow when the text has been sent on the socket `new`. -/
inductive AfterText (text : UriInfo → List UInt8 → Prop) (u : UriInfo) (new : Nat) :
    List HttpOut → Int → Prop
  | answered {fd' : Int} {errCode contentLen : Nat} {code : Int} : fd' = new ∨ fd' = -1 →
      AfterText text u new (leaving new fd' ++ [.rspCb errCode code contentLen]) fd'
  | redirected {u' : UriInfo} {fd' : Int} {location : List UInt8} {outs : List HttpOut} :
      some location ≠ u.url → ParsedFrom location u' → Chain text u' new outs fd' →
      AfterText text u new outs fd'

theorem AfterText.chain {text : UriInfo → List UInt8 → Prop} {u : UriInfo} {new : Nat}
    {outs : List HttpOut} {fd fd' : Int} (h : AfterText text u new outs fd') {t : List UInt8}
    {ps : List (List UInt8)} (ht : text u t) (hps : ps.flatten = t) :
    Chain text u fd (connecting fd new u ++ (sending new ps ++ outs)) fd' := by
  cases h with
  | answered hfd => exact .answered ht hps hfd
  | redirected hne hparsed hnext => exact .redirected ht hps hne hparsed hnext

theorem natCast_ne_neg (new : Nat) : (new : Int) ≠ -1 := by omega

/-! ### The receiver -/

/-- An answer is passed on, and the socket closed if it does not stay. -/
theorem deliver_rspCb {s : HttpSession} {new : Nat} (hfd : s.http.socketFd = new) {h : HttpClient}
    (hh : h.socketFd = new ∨ h.socketFd = -1) (errCode : Nat) (code : Int) (contentLen : Nat) :
    (s.deliver (h, .rspCb errCode code contentLen)).out
      = s.out ++ (leaving new h.socketFd ++ [.rspCb errCode code contentLen]) := by
  show (s.out ++ _) ++ _ = _
  rw [List.append_assoc, hfd]
  rcases hh with hnew | hnone
  · rw [hnew, leaving, if_neg (natCast_ne_neg new), if_neg fun hc => natCast_ne_neg new hc.2]
  · rw [hnone, leaving, if_pos rfl, if_pos ⟨natCast_ne_neg new, rfl⟩]

theorem endsAs_answer {text : UriInfo → List UInt8 → Prop} {u : UriInfo} {new : Nat}
    {s s₁ : HttpSession} (hinit : s₁.isHttpInited = true) (hfd : s₁.http.socketFd = new)
    (hout : s₁.out = s.out) (hkept : Kept s s₁) {h : HttpClient} (hrun : h.isRunning = false)
    (hst : h.stateType = .urlReady) (hh : h.socketFd = new ∨ h.socketFd = -1) (errCode : Nat)
    (code : Int) (contentLen : Nat) :
    EndsAs (AfterText text u new) s (s₁.deliver (h, .rspCb errCode code contentLen)) := by
  refine ⟨leaving new h.socketFd ++ [.rspCb errCode code contentLen], ?_, .answered hh,
    ⟨hrun, hst, hinit⟩, hkept⟩
  rw [deliver_rspCb hfd hh, hout]

/-- The client gives up what it has received, and answers. -/
theorem endsAs_result {text : UriInfo → List UInt8 → Prop} {u : UriInfo} {new : Nat}
    {s s₁ : HttpSession} (hinit : s₁.isHttpInited = true) (hfd : s₁.http.socketFd = new)
    (hout : s₁.out = s.out) (hkept : Kept s s₁) :
    EndsAs (AfterText text u new) s (s₁.deliver s₁.http.httpResultRspHandler) := by
  rw [httpResultRspHandler_eq]
  refine endsAs_answer hinit hfd hout hkept rfl rfl ?_ _ _ _
  dsimp only
  split
  · exact .inr rfl
  · exact .inl hfd

theorem httpUrlParse_inited (m : UrlBuffers) (pUrl : Option (List UInt8)) {p : UrlParser}
    (h : p.isHttpInited = true) : (httpUrlParse m pUrl p).2.isHttpInited = true := by
  have hbehind (https : Bool) (src : List UInt8) {p : UrlParser} (h : p.isHttpInited = true) :
      (urlBehindScheme m https src p).2.isHttpInited = true := by
    unfold urlBehindScheme
    dsimp only
    split
    · exact h
    · split <;> exact h
  unfold httpUrlParse
  cases pUrl with
  | none => exact h
  | some pUrl =>
      simp only [h, if_true]
      split
      · exact h
      · split
        · rfl
        · split
          · exact hbehind _ _ rfl
          · split
            · exact hbehind _ _ rfl
            · rfl

/-- A URL is parsed once the client has been initialised. -/
theorem parseUrl_eq {s : HttpSession} (hinit : s.isHttpInited = true) (pUrl : List UInt8) :
    s.parseUrl pUrl = ((httpUrlParse ⟨true, true, true⟩ (some pUrl) s.parser).1,
      s.withParser (httpUrlParse ⟨true, true, true⟩ (some pUrl) s.parser).2) := by
  unfold parseUrl
  dsimp only
  rw [if_pos (.inr (.inr hinit))]

theorem sameRequest_withParser {s : HttpSession} {p : UrlParser}
    (h : p.isHttpInited = s.isHttpInited) : SameRequest s (s.withParser p) :=
  ⟨h, rfl, rfl, rfl, rfl, rfl, fun _ => rfl, id⟩

/-- What the attempt that a redirection starts does. -/
def NextEnds (s₀ : HttpSession) (next : HttpSession → Option HttpSession) : Prop :=
  ∀ s s' : HttpSession, SameRequest s₀ s → next s = some s' →
    EndsAs (Chain s₀.IsText s.urlInfo s.http.socketFd) s s'

theorem endsAs_redirect {s₀ s s₁ s' : HttpSession} {hop : Hop}
    {next : HttpSession → Option HttpSession} {rxBuf : List UInt8} {new : Nat} {u : UriInfo}
    (hinit : s₀.isHttpInited = true) (hnext : NextEnds s₀ next) (hsame : SameRequest s₀ s₁)
    (hfd : s₁.http.socketFd = new) (hout : s₁.out = s.out) (hkept : Kept s s₁)
    (hu : s₁.urlInfo = u) (h : s₁.httpRedirectRspStatus hop next rxBuf = some s') :
    EndsAs (AfterText s₀.IsText u new) s s' := by
  have hinit₁ : s₁.isHttpInited = true := hsame.inited.trans hinit
  unfold httpRedirectRspStatus at h
  split at h
  · obtain rfl := Option.some.inj h
    exact endsAs_result hinit₁ hfd hout hkept
  · obtain ⟨location, hloc, h⟩ := Option.bind_eq_some_iff.mp h
    cases location with
    | none =>
        obtain rfl := Option.some.inj h
        exact endsAs_result hinit₁ hfd hout hkept
    | some location =>
        dsimp only at h
        split at h
        · next hne =>
          have hinit₂ :=
            httpUrlParse_inited ⟨true, true, true⟩ (some location) (p := s₁.parser) hinit₁
          rw [parseUrl_eq hinit₁] at h
          have hsame₂ := hsame.trans (sameRequest_withParser (s := s₁)
            (p := (httpUrlParse ⟨true, true, true⟩ (some location) s₁.parser).2)
            (hinit₂.trans hinit₁.symm))
          have hparsed : Kept s₁ (s₁.withParser
              (httpUrlParse ⟨true, true, true⟩ (some location) s₁.parser).2) :=
            ⟨rfl, .parsed location .same⟩
          dsimp only at h
          split at h
          · obtain rfl := Option.some.inj h
            exact endsAs_result hinit₂ hfd hout (hkept.trans hparsed)
          · next hret =>
            obtain ⟨outs, ho, hchain, hrest, hkept'⟩ := hnext _ s' hsame₂ h
            refine ⟨outs, ho.trans (congrArg (· ++ outs) hout), ?_, hrest,
              (hkept.trans hparsed).trans hkept'⟩
            refine .redirected (hu ▸ hne) ⟨s₁.parser, not_not.mp hret, rfl⟩ ?_
            rw [← hfd]
            exact hchain
        · obtain rfl := Option.some.inj h
          exact endsAs_result hinit₁ hfd hout hkept

/-- **The receiver**, with what a redirection leads to. -/
theorem endsAs_receive {s₀ s s' : HttpSession} {hop : Hop}
    {next : HttpSession → Option HttpSession} {new : Nat} (hinit : s₀.isHttpInited = true)
    (hnext : NextEnds s₀ next) (hsame : SameRequest s₀ s) (hfd : s.http.socketFd = new)
    (hst : s.http.stateType = .receiveStart) (hheader : s.http.receiveStatus = .header)
    (h : s.receiveRsp hop next = some s') :
    EndsAs (AfterText s₀.IsText s.urlInfo new) s s' := by
  obtain ⟨⟨answer, k⟩, hrun, h⟩ := Option.bind_eq_some_iff.mp h
  have hrec : Received s.http hop.sock.bytes answer k :=
    received_of_receiveRsp (by rw [hst]; decide) (by rw [hst]; decide) _ _ _ _ _
      (.start hheader hop.sock) hrun
  cases hrec with
  | @answered h' _ errCode contentLen code hrest hready hsock =>
      obtain rfl := Option.some.inj h
      have hends : EndsAs (AfterText s₀.IsText s.urlInfo new) s _ :=
        endsAs_answer (hsame.inited.trans hinit) hfd rfl ⟨rfl, .same⟩ hrest hready (hfd ▸ hsock)
          errCode code contentLen
      obtain ⟨outs, hout, hafter, ⟨hrun, hst', hinit'⟩, hkept⟩ := hends
      exact ⟨outs, hout, hafter, ⟨hrun, hst', hinit'⟩, hkept⟩
  | @redirected h' _ t hsock hready hact hread hbody =>
      have hsame₁ : SameRequest s₀ { s.setHttp h' with sock := k } :=
        hsame.trans ⟨rfl, hact, hread, rfl, rfl, rfl, fun _ => rfl, hbody⟩
      have hout : s.out ++ (if s.http.socketFd ≠ -1 ∧ h'.socketFd = -1 then
          [HttpOut.socketClose s.http.socketFd] else []) = s.out := by
        rw [hsock, if_neg fun hc => hc.1 hc.2, List.append_nil]
      exact endsAs_redirect hinit hnext hsame₁ (hsock.trans hfd) hout ⟨rfl, .same⟩ rfl h

/-! ### The attempt -/

/-- `http_resetStatus` closes the socket that is open. -/
theorem resetStatus_out (s : HttpSession) :
    s.httpResetStatus.out = s.out ++ closing s.http.socketFd := by
  show s.out ++ (if s.http.socketFd ≠ -1 ∧ (-1 : Int) = -1 then _ else []) = _
  unfold closing
  by_cases hfd : s.http.socketFd = -1
  · rw [if_pos hfd, if_neg fun hc => hc.1 hfd]
  · rw [if_neg hfd, if_pos ⟨hfd, rfl⟩]

/-- An error behind the connection: the socket is closed, and the request answered. -/
theorem endsAs_reset {P : List HttpOut → Int → Prop} {s s₁ : HttpSession} {new : Nat}
    {outs : List HttpOut} (hinit : s₁.isHttpInited = true) (hfd : s₁.http.socketFd = new)
    (hst : s₁.http.stateType ≠ .none) (hget : s₁.http.stateType ≠ .urlGetting)
    (hout : s₁.out = s.out ++ outs) (hkept : Kept s s₁) (errCode : Nat)
    (hP : P (outs ++ [.socketClose new, .rspCb errCode 0 0]) (-1)) :
    EndsAs P s ((s₁.httpResetStatus.setErr errCode).rspCb errCode 0 0) := by
  obtain ⟨hrun, hready, hnone⟩ := httpResetStatus_rest hst hget
  refine ⟨outs ++ [.socketClose new, .rspCb errCode 0 0], ?_, hnone ▸ hP,
    ⟨hrun, hready, hinit⟩, hkept⟩
  show s₁.httpResetStatus.out ++ [.rspCb errCode 0 0] = _
  rw [resetStatus_out, closing, hfd, if_neg (natCast_ne_neg new), hout, List.append_assoc,
    List.append_assoc]
  rfl

theorem connectFails_err (s : HttpSession) (errCode : Nat) :
    (s.connectFails errCode).2.http.httpErrCode = errCode := by
  show (HttpClient.httpResetStatus (s.setErr errCode).http).httpErrCode = errCode
  unfold HttpClient.httpResetStatus httpClearBuf httpCloseSocket
  dsimp only
  split <;> rfl

/-- An error before it. -/
theorem endsAs_connectFails {P : List HttpOut → Int → Prop} {s s₁ : HttpSession}
    {outs : List HttpOut} (hinit : s₁.isHttpInited = true) (hst : s₁.http.stateType ≠ .none)
    (hget : s₁.http.stateType ≠ .urlGetting) (hout : s₁.out = s.out ++ outs) (hkept : Kept s s₁)
    (errCode : Nat) (hP : P (outs ++ (closing s₁.http.socketFd ++ [.rspCb errCode 0 0])) (-1)) :
    EndsAs P s (s₁.connectFails errCode).2.exitRequest := by
  obtain ⟨-, hready, -⟩ := httpResetStatus_rest (h := (s₁.setErr errCode).http) hst hget
  have herr := s₁.connectFails_err errCode
  refine ⟨outs ++ (closing s₁.http.socketFd ++ [.rspCb errCode 0 0]), ?_, ?_,
    ⟨rfl, hready, hinit⟩, hkept⟩
  · show (s₁.setErr errCode).httpResetStatus.out ++ [.rspCb
      (s₁.connectFails errCode).2.http.httpErrCode 0 0] = _
    rw [resetStatus_out, herr]
    show (s₁.out ++ closing s₁.http.socketFd) ++ _ = _
    rw [hout, List.append_assoc, List.append_assoc]
  · exact hP

/-- **From the connected socket on.** -/
theorem endsAs_send {s₀ s s' : HttpSession} {hop : Hop} {next : HttpSession → Option HttpSession}
    {new : Nat} (hinit : s₀.isHttpInited = true) (hnext : NextEnds s₀ next)
    (hsame : SameRequest s₀ s) (hfd : s.http.socketFd = new) (hst : s.http.stateType = .connected)
    (h : s.httpActionSendData hop next = some s') :
    EndsAs (fun outs fd' => ∀ fd, Chain s₀.IsText s.urlInfo fd
      (connecting fd new s.urlInfo ++ outs) fd') s s' := by
  have htext := hsame.isText
  have hw := s.written_pack
  unfold httpActionSendData at h
  split at h
  · obtain rfl := Option.some.inj h
    refine endsAs_reset (hsame.inited.trans hinit) hfd (by rw [hst]; decide)
      (by rw [hst]; decide) (List.append_nil _).symm ⟨rfl, .same⟩ _ fun fd => ?_
    have hnone : ([] : List (List UInt8)).flatten <+: s.httpConstructRequestPack.pHttpTxBuf :=
      List.nil_prefix
    exact .unsent (by decide) htext hnone
  · obtain ⟨⟨ret, s₁⟩, hsend, h⟩ := Option.bind_eq_some_iff.mp h
    obtain ⟨ps, reach, rfl, hends⟩ := sendRequestPack_spec (hfd ▸ natCast_ne_neg new) hsend
    obtain ⟨s₁, hs₁⟩ : ∃ s₁, s₁ = (s.httpConstructRequestPack.sentState ps reach).tick
      hop.sendReach := ⟨_, rfl⟩
    have hout : s₁.out = s.out ++ sending new ps := by
      rw [hs₁]
      show s.httpConstructRequestPack.out ++ sending s.httpConstructRequestPack.http.socketFd ps = _
      rw [hw.out, hw.socketFd, hfd]
    have hfd₁ : s₁.http.socketFd = new := by
      rw [hs₁]
      exact hw.socketFd.trans hfd
    have hst₁ : s₁.http.stateType = .send := by
      rw [hs₁]
      rfl
    have hsame₁ : SameRequest s₀ s₁ := by
      rw [hs₁]
      exact hsame.trans ⟨hw.same.inited, hw.same.actionType, hw.same.readCurLen, hw.same.reqHeader,
        hw.same.contentType, hw.same.reqHeaderKv, hw.same.header, hw.same.pBody⟩
    have hu : s₁.urlInfo = s.urlInfo := by
      rw [hs₁]
      exact hw.urlInfo
    have hkv : s₁.reqHeaderKv = s.reqHeaderKv := by
      rw [hs₁]
      exact hw.same.reqHeaderKv
    have hpart : ps.flatten <+: s.httpConstructRequestPack.pHttpTxBuf := by
      rcases hends with ⟨-, hall⟩ | ⟨-, hpart⟩
      · rw [hall]
      · exact hpart
    have hfails (errCode : Nat) (herr : errCode ≠ 0) :
        EndsAs (fun outs fd' => ∀ fd, Chain s₀.IsText s.urlInfo fd
          (connecting fd new s.urlInfo ++ outs) fd') s
          ((s₁.httpResetStatus.setErr errCode).rspCb errCode 0 0) :=
      endsAs_reset (hsame₁.inited.trans hinit) hfd₁ (by rw [hst₁]; decide)
        (by rw [hst₁]; decide) hout ⟨hkv, hu ▸ .same⟩ _ fun fd => .unsent herr htext hpart
    dsimp only at h
    rw [← hs₁] at h
    split at h
    · obtain rfl := Option.some.inj h
      exact hfails _ (by decide)
    · split at h
      · next hret =>
        have hall : ps.flatten = s.httpConstructRequestPack.pHttpTxBuf := by
          rcases hends with ⟨-, hall⟩ | ⟨hret', -⟩
          · exact hall
          · exact absurd (hret.symm.trans hret') (by decide)
        obtain ⟨s₂, hs₂⟩ : ∃ s₂ : HttpSession, s₂ = { s₁ with
            http.stateType := .receiveStart
            http.receiveStatus := .header
            http.receiveSize := 0 } := ⟨_, rfl⟩
        rw [← hs₂] at h
        have hrec : EndsAs (AfterText s₀.IsText s₂.urlInfo new) s₂ s' := by
          refine endsAs_receive hinit hnext (hsame₁.trans ?_) ?_ ?_ ?_ h
          · rw [hs₂]
            exact ⟨rfl, rfl, rfl, rfl, rfl, rfl, fun _ => rfl, id⟩
          · rw [hs₂]
            exact hfd₁
          · rw [hs₂]
          · rw [hs₂]
        have hout₂ : s₂.out = s.out ++ sending new ps := by
          rw [hs₂]
          exact hout
        have hu₂ : s₂.urlInfo = s.urlInfo := by
          rw [hs₂]
          exact hu
        have hkept : Kept s s₂ := by
          rw [hs₂]
          exact ⟨hkv, hu ▸ .same⟩
        refine hrec.prepend hkept hout₂ fun outs fd' hafter fd => ?_
        rw [hu₂] at hafter
        exact hafter.chain htext hall
      · obtain rfl := Option.some.inj h
        exact hfails _ (by decide)

/-- From `s` on, the socket `new` has been created, and `tried` on it. -/
structure Socketed (s : HttpSession) (new : Nat) (tried : List HttpOut) (s₁ : HttpSession) :
    Prop where
  same : SameRequest s s₁
  urlInfo : s₁.urlInfo = s.urlInfo
  socketFd : s₁.http.socketFd = new
  started : s₁.http.stateType ≠ .none ∧ s₁.http.stateType ≠ .urlGetting
  out : s₁.out = s.out ++ (closing s.http.socketFd ++ (.socketCreate new :: tried))

theorem Socketed.tick {s s₁ : HttpSession} {new : Nat} {tried : List HttpOut}
    (h : Socketed s new tried s₁) (reach : Bool) : Socketed s new tried (s₁.tick reach) :=
  ⟨h.same.trans ⟨rfl, rfl, rfl, rfl, rfl, rfl, fun _ => rfl, id⟩, h.urlInfo, h.socketFd, h.started,
    h.out⟩

theorem Socketed.emit {s s₁ : HttpSession} {new : Nat} (h : Socketed s new [] s₁) (o : HttpOut) :
    Socketed s new [o] (s₁.emit o) := by
  refine ⟨h.same.trans ⟨rfl, rfl, rfl, rfl, rfl, rfl, fun _ => rfl, id⟩, h.urlInfo, h.socketFd,
    h.started, ?_⟩
  show s₁.out ++ [o] = _
  rw [h.out, List.append_assoc, List.append_assoc]
  rfl

theorem Socketed.connected {s s₁ : HttpSession} {new : Nat} {tried : List HttpOut}
    (h : Socketed s new tried s₁) :
    Socketed s new tried { s₁ with http.stateType := .connected } :=
  ⟨h.same.trans ⟨rfl, rfl, rfl, rfl, rfl, rfl, fun _ => rfl, id⟩, h.urlInfo, h.socketFd,
    ⟨fun hc => HttpStateType.noConfusion hc, fun hc => HttpStateType.noConfusion hc⟩, h.out⟩

/-- The errors between the socket and the text. -/
theorem Socketed.fails {text : UriInfo → List UInt8 → Prop} {s s₁ : HttpSession} {new : Nat}
    {tried : List HttpOut} (h : Socketed s new tried s₁) (hinit : s.isHttpInited = true)
    (htried : tried <+: [.socketConnect new (s.urlInfo.host.getD []) s.urlInfo.port])
    {errCode : Nat} (herr : errCode ≠ 0) :
    EndsAs (Chain text s.urlInfo s.http.socketFd) s (s₁.connectFails errCode).2.exitRequest := by
  refine endsAs_connectFails (h.same.inited.trans hinit) h.started.1 h.started.2 h.out
    (h.same.kept h.urlInfo) errCode ?_
  have hclose : closing s₁.http.socketFd = [.socketClose new] := by
    rw [h.socketFd]
    exact if_neg (natCast_ne_neg new)
  rw [hclose, List.append_assoc]
  exact .unconnected herr htried

/-- From the connection on. -/
theorem Socketed.sends {s₀ s s₁ s' : HttpSession} {hop : Hop}
    {next : HttpSession → Option HttpSession} {new : Nat} (hinit : s₀.isHttpInited = true)
    (hnext : NextEnds s₀ next) (hsame : SameRequest s₀ s)
    (h : Socketed s new [.socketConnect new (s.urlInfo.host.getD []) s.urlInfo.port] s₁)
    (hst : s₁.http.stateType = .connected) (hrun : s₁.httpActionSendData hop next = some s') :
    EndsAs (Chain s₀.IsText s.urlInfo s.http.socketFd) s s' := by
  have hends := endsAs_send hinit hnext (hsame.trans h.same) h.socketFd hst hrun
  rw [h.urlInfo] at hends
  exact hends.prepend (h.same.kept h.urlInfo) h.out fun outs fd' hchain => hchain _

/-- **An attempt**, from the resolved name on. -/
theorem endsAs_connect {s₀ s s' : HttpSession} {hop : Hop}
    {next : HttpSession → Option HttpSession} (hinit : s₀.isHttpInited = true)
    (hnext : NextEnds s₀ next) (hsame : SameRequest s₀ s) (hst : s.http.stateType = .ipGot)
    (h : (s.httpSocketCreatAndConnect hop next).map
      (fun r => if r.1 ≠ 0 then r.2.exitRequest else r.2) = some s') :
    EndsAs (Chain s₀.IsText s.urlInfo s.http.socketFd) s s' := by
  have hinit' : s.isHttpInited = true := hsame.inited.trans hinit
  obtain ⟨⟨ret, t⟩, h, hs'⟩ := Option.map_eq_some_iff.mp h
  -- an error returns -1
  have hfails {e : Nat} {s₁ : HttpSession} (he : some (s₁.connectFails e) = some (ret, t)) :
      s' = (s₁.connectFails e).2.exitRequest := by
    obtain ⟨rfl, rfl⟩ := Prod.mk.inj (Option.some.inj he)
    exact hs'.symm
  obtain ⟨c, hc⟩ : ∃ c, c = s.setHttp s.http.httpCloseSocket := ⟨_, rfl⟩
  have hclose : c.out = s.out ++ closing s.http.socketFd := by
    rw [hc]
    exact s.resetStatus_out
  have hnone : c.http.socketFd = -1 := by rw [hc]; rfl
  have hstarted : c.http.stateType ≠ .none ∧ c.http.stateType ≠ .urlGetting := by
    rw [hc]
    show s.http.stateType ≠ .none ∧ s.http.stateType ≠ .urlGetting
    rw [hst]
    decide
  have hsame₁ : SameRequest s c := by
    rw [hc]
    exact ⟨rfl, rfl, rfl, rfl, rfl, rfl, fun _ => rfl, id⟩
  unfold httpSocketCreatAndConnect at h
  rw [← hc] at h
  dsimp only at h
  split at h
  · rw [hfails h]
    refine endsAs_connectFails (hsame₁.inited.trans hinit') hstarted.1 hstarted.2 hclose
      (hsame₁.kept (by rw [hc]; rfl)) _ ?_
    rw [hnone]
    exact .noSocket
  · next new _ =>
    have h₁ : Socketed s new [] ({ c with http.socketFd := new }.emit (.socketCreate new)) := by
      refine ⟨hsame₁.trans ⟨rfl, rfl, rfl, rfl, rfl, rfl, fun _ => rfl, id⟩, ?_, rfl, hstarted, ?_⟩
      · rw [hc]
        rfl
      · show c.out ++ [.socketCreate new] = _
        rw [hclose, List.append_assoc]
    have hnothing : ([] : List HttpOut) <+:
        [.socketConnect new (s.urlInfo.host.getD []) s.urlInfo.port] := List.nil_prefix
    split at h
    · rw [hfails h]
      exact h₁.fails hinit' hnothing (by decide)
    · split at h
      · rw [hfails h]
        exact (h₁.tick _).fails hinit' hnothing (by decide)
      · have h₂ := (h₁.tick hop.createReach).emit
          (.socketConnect new (s.urlInfo.host.getD []) s.urlInfo.port)
        have hu : ((({ c with http.socketFd := new } : HttpSession).emit
            (.socketCreate new)).tick hop.createReach).urlInfo = s.urlInfo := h₁.urlInfo
        rw [hu] at h
        split at h
        · rw [hfails h]
          exact h₂.fails hinit' (List.prefix_refl _) (by decide)
        · split at h
          · rw [hfails h]
            exact (h₂.tick _).fails hinit' (List.prefix_refl _) (by decide)
          · split at h
            · rw [hfails h]
              exact (h₂.tick _).connected.fails hinit' (List.prefix_refl _) (by decide)
            · obtain ⟨s₃, hrun, heq⟩ := Option.map_eq_some_iff.mp h
              obtain ⟨rfl, rfl⟩ := Prod.mk.inj heq
              obtain rfl := hs'
              exact (h₂.tick _).connected.sends hinit hnext hsame rfl hrun

/-- **A chain of attempts.** -/
theorem endsAs_attempts {s₀ : HttpSession} (hinit : s₀.isHttpInited = true) :
    ∀ (hops : List Hop) (s s' : HttpSession), SameRequest s₀ s →
      s.httpGetOrPostReqHandle hops = some s' →
      EndsAs (Chain s₀.IsText s.urlInfo s.http.socketFd) s s'
  | [], _, _, _, h => by
      unfold httpGetOrPostReqHandle at h
      exact absurd h (by simp)
  | hop :: hops, s, s', hsame, h => by
      have hnext : NextEnds s₀ (httpGetOrPostReqHandle hops) := fun t t' ht =>
        endsAs_attempts hinit hops t t' ht
      unfold httpGetOrPostReqHandle at h
      split at h
      · obtain rfl := Option.some.inj h
        exact ⟨_, rfl, .unresolved, ⟨rfl, rfl, hsame.inited.trans hinit⟩, rfl, .same⟩
      · obtain ⟨s₁, hs₁⟩ : ∃ s₁ : HttpSession, s₁ = { s with
            http.stateType := .ipGot, http.rspReach := false } := ⟨_, rfl⟩
        have hsame₁ : SameRequest s s₁ := by
          rw [hs₁]
          exact ⟨rfl, rfl, rfl, rfl, rfl, rfl, fun _ => rfl, id⟩
        have hst₁ : s₁.http.stateType = .ipGot := by rw [hs₁]
        have hrun : (s₁.httpSocketCreatAndConnect hop (httpGetOrPostReqHandle hops)).map
            (fun r => if r.1 ≠ 0 then r.2.exitRequest else r.2) = some s' := by
          rw [hs₁]
          exact h
        have hends := endsAs_connect hinit hnext (hsame.trans hsame₁) hst₁ hrun
        rw [hs₁] at hends
        exact hends

/-! ## `http_get` and `http_post` -/

/-- The errors of a request that is refused. -/
def refusals : List Nat := [httpBusy, httpEmptyUrl, httpUrlErr, httpInvalidParam]

/-- A call is answered at once, with an error. -/
def RefusedAs (s s' : HttpSession) : Prop :=
  (∃ errCode ∈ refusals, s'.out = s.out ++ [.rspCb errCode 0 0]) ∧
    s'.http.socketFd = s.http.socketFd ∧ s'.isHttpInited = s.isHttpInited ∧ Kept s s'

theorem refusedAs_exit {s s₁ : HttpSession} (hout : s₁.out = s.out)
    (hfd : s₁.http.socketFd = s.http.socketFd) (hinit : s₁.isHttpInited = s.isHttpInited)
    (hkept : Kept s s₁) {errCode : Nat} (hmem : errCode ∈ refusals) :
    RefusedAs s (s₁.setErr errCode).exitRequest :=
  ⟨⟨errCode, hmem, congrArg (· ++ [_]) hout⟩, hfd, hinit, hkept⟩

theorem refused_eq_some {s s' : HttpSession} (h : s.refused = some s') : RefusedAs s s' := by
  unfold refused at h
  split at h
  · obtain rfl := Option.some.inj h
    exact ⟨⟨httpBusy, by decide, rfl⟩, rfl, rfl, rfl, .same⟩
  · split at h
    · obtain rfl := Option.some.inj h
      exact refusedAs_exit rfl rfl rfl ⟨rfl, .same⟩ (by decide)
    · split at h
      · obtain rfl := Option.some.inj h
        exact refusedAs_exit rfl rfl rfl ⟨rfl, .same⟩ (by decide)
      · exact absurd h (by simp)

/-- What a request does: it is refused and answered at once, or it goes through a chain of
attempts and leaves the client at rest. -/
def Requests (text : UriInfo → List UInt8 → Prop) (s s' : HttpSession) : Prop :=
  RefusedAs s s' ∨ EndsAs (Chain text s.urlInfo s.http.socketFd) s s'

/-- What `http_get` begins with. -/
def getBegun (pHeaderStr : List UInt8) (s : HttpSession) : HttpSession :=
  { s.beginRequest .get with header := if s.reqHeader = 1 then pHeaderStr else [] }

/-- What `http_post` begins with. -/
def postBegun (pData : List UInt8) (s : HttpSession) : HttpSession :=
  { s.beginRequest .post with
    http.pBody := some (Mem.ofList pData), http.bodySize := pData.length }

/-- A request that has begun. -/
theorem requests_begun {s s₁ s' : HttpSession} {hops : List Hop}
    (h : s₁.httpGetOrPostReqHandle hops = some s') (hinit : s₁.isHttpInited = true)
    (hout : s₁.out = s.out) (hu : s₁.urlInfo = s.urlInfo)
    (hfd : s₁.http.socketFd = s.http.socketFd) (hkv : s₁.reqHeaderKv = s.reqHeaderKv) :
    Requests s₁.IsText s s' := by
  obtain ⟨outs, ho, hchain, hrest, hkept⟩ := endsAs_attempts hinit hops s₁ s' (.refl s₁) h
  rw [hu, hfd] at hchain
  exact .inr ⟨outs, ho.trans (congrArg (· ++ outs) hout), hchain, hrest,
    hkept.1.trans hkv, hu ▸ hkept.2⟩

/-- **`http_get`**, whatever the outside does. -/
theorem httpGet_requests {s s' : HttpSession} {pHeaderStr : List UInt8} {hops : List Hop}
    (hinit : s.isHttpInited = true) (h : s.httpGet pHeaderStr hops = some s') :
    Requests (s.getBegun pHeaderStr).IsText s s' := by
  unfold httpGet at h
  split at h
  · next s₁ href =>
    obtain rfl := Option.some.inj h
    exact .inl (refused_eq_some href)
  · dsimp only at h
    split at h
    · next h1 =>
      have h1' : s.reqHeader = 1 := h1
      split at h
      · obtain rfl := Option.some.inj h
        exact .inl (refusedAs_exit rfl rfl rfl ⟨rfl, .same⟩ (by decide))
      · have hbegun :
            { s.beginRequest .get with header := pHeaderStr } = s.getBegun pHeaderStr := by
          rw [getBegun, if_pos h1']
        rw [hbegun] at h
        exact requests_begun h hinit rfl rfl rfl rfl
    · next h1 =>
      have h1' : s.reqHeader ≠ 1 := h1
      have hbegun : s.beginRequest .get = s.getBegun pHeaderStr := by
        rw [getBegun, if_neg h1']
        rfl
      rw [hbegun] at h
      exact requests_begun h hinit rfl rfl rfl rfl

/-- **`http_post`**, likewise. -/
theorem httpPost_requests {s s' : HttpSession} {pData : List UInt8} {hops : List Hop}
    (hinit : s.isHttpInited = true) (h : s.httpPost pData hops = some s') :
    Requests (s.postBegun pData).IsText s s' := by
  unfold httpPost at h
  split at h
  · next s₁ href =>
    obtain rfl := Option.some.inj h
    exact .inl (refused_eq_some href)
  · split at h
    · obtain rfl := Option.some.inj h
      exact .inl (refusedAs_exit rfl rfl rfl ⟨rfl, .same⟩ (by decide))
    · exact requests_begun h hinit rfl rfl rfl rfl

end HttpSession

end IntercomSalve
