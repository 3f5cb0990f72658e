/-
# `HttpRequest` — the request, from `http_get` and `http_post` to the answer

A request goes through the functions of `httpClient.c` in one call: the name is
resolved, a socket created and connected, the request written and sent, and the
response received.  A response that redirects starts over with the URL it names,
from inside the handling of the first one (`httpGetOrPostReqHandle`).

`HttpSession` is the client with the rest of its variables: what `HttpClient` has,
the URL, what the application has set for its requests, the request as it is sent,
and what the open socket still delivers.  `out` is not in the source: what the
client does with sockets, and the calls of `rspCb`, in order.

What the outside gives to one attempt is a `Hop`: whether the name is resolved and
the socket connected, how much every call that sends takes, what the socket
delivers, and at each place where the source looks whether the response timer has
run out by then.  A chain of attempts that is not done when the hops end has no
result.  The buffers of the URL parser are always given.
-/
import IntercomSalve.Lib.HttpHead
import IntercomSalve.UrlParse

namespace IntercomSalve

open CString HttpHead

/-! ## The state -/

/-- `HTTP_CONTENT_TYPE_E`. -/
inductive HttpContentType where
  | applicationUrlencoded
  | textPlain
  | applicationOctetStream
  | mulipartFormData
  | applicationJson
  | audioMp3
  | maxNum
  deriving Repr, DecidableEq

/-- `HTTP_HEADER_KV_S`, as strings. -/
structure HttpHeaderKv where
  key : List UInt8
  value : List UInt8
  deriving Repr, DecidableEq

/-- `HTTP_HEADER_KEY_LEN`. -/
def httpHeaderKeyLen : Nat := 64
/-- `HTTP_HEADER_VALUE_LEN`. -/
def httpHeaderValueLen : Nat := 128
/-- `HTTP_HEADER_KV_MAX`. -/
def httpHeaderKvMax : Nat := 8
/-- `HTTP_DEF_HEAD_MAX_SIZE`. -/
def httpDefHeadMaxSize : Nat := 400 + httpUrlMaxLen

/-- `HTTP_BUSY`. -/
def httpBusy : Nat := 703
/-- `HTTP_DNS_ERR`. -/
def httpDnsErr : Nat := 714
/-- `HTTP_SOCK_CREATE_ERR`. -/
def httpSockCreateErr : Nat := 715
/-- `HTTP_SOCK_CONNECT_ERR`. -/
def httpSockConnectErr : Nat := 716
/-- `HTTP_SOCK_WR_ERR`. -/
def httpSockWrErr : Nat := 718

/-- `HTTP_RESPONSE_CODE_METHOD_NOT_ALLOWED`. -/
def httpResponseCodeMethodNotAllowed : Int := 405
/-- `HTTP_RESPONSE_CODE_DNS_ERROR`. -/
def httpResponseCodeDnsError : Int := 603

/-- What the client does that is seen outside. -/
inductive HttpOut where
  | socketCreate (fd : Nat)
  | socketConnect (fd : Int) (host : List UInt8) (port : Nat)
  /-- what `KING_SocketSend` or `httpTls_write` has taken -/
  | socketSend (fd : Int) (bs : List UInt8)
  | socketClose (fd : Int)
  | rspCb (errCode : Nat) (httprspcode : Int) (contentLen : Nat)
  deriving Repr, DecidableEq

/-- The variables of `httpClient.c`. -/
structure HttpSession where
  http : HttpClient
  isHttpInited : Bool
  urlInfo : UriInfo
  contentType : HttpContentType
  reqHeader : Nat
  reqHeaderKv : Vector HttpHeaderKv httpHeaderKvMax
  /-- the `headerlen` bytes in `pHeaderptr`, as far as they belong to the request -/
  header : List UInt8
  pHttpTxBuf : List UInt8
  sendTotalLen : Nat
  unsendLen : Nat
  /-- what the open socket still delivers -/
  sock : Sock
  out : List HttpOut

/-- One call of `KING_SocketSend` or `httpTls_write`: it returns -1, or takes as much as it
can up to a limit. -/
structure SendCall where
  takes : Option Nat
  /-- the response timer has run out by its return -/
  rspReach : Bool
  deriving Repr, DecidableEq

/-- What the outside gives to one attempt. -/
structure Hop where
  /-- `http_getIPAddrByHostname` returns 0 -/
  resolved : Bool
  /-- `KING_SocketCreate` -/
  socketFd : Option Nat
  /-- the rest of `http_socketCreate`, with the local address and `KING_SocketBind` -/
  bound : Bool
  /-- the timer has run out by the end of `http_socketCreate` -/
  createReach : Bool
  /-- `http_socketConnect` returns 0 -/
  connected : Bool
  /-- the timer has run out by its end -/
  connectReach : Bool
  /-- `httpTls_connect` does not fail -/
  tlsConnected : Bool
  /-- `malloc` gives a buffer for the request -/
  txBuf : Bool
  sends : List SendCall
  /-- the timer has run out behind them -/
  sendReach : Bool
  /-- what the socket delivers -/
  sock : Sock
  /-- `malloc` gives a buffer for the location of a redirection -/
  location : Bool
  deriving Repr, DecidableEq

namespace HttpSession

/-- The client takes another state; a socket it no longer has is closed. -/
def setHttp (h : HttpClient) (s : HttpSession) : HttpSession :=
  { s with
    http := h
    out := s.out ++
      if s.http.socketFd ≠ -1 ∧ h.socketFd = -1 then [.socketClose s.http.socketFd] else [] }

/-- Something is done that is seen outside. -/
def emit (o : HttpOut) (s : HttpSession) : HttpSession := { s with out := s.out ++ [o] }

/-- `httpInfo.rspCb (errCode, httprspcode, contentLen)`. -/
def rspCb (errCode : Nat) (httprspcode : Int) (contentLen : Nat) (s : HttpSession) :
    HttpSession :=
  s.emit (.rspCb errCode httprspcode contentLen)

/-- `httpErrCode = errCode`. -/
def setErr (errCode : Nat) (s : HttpSession) : HttpSession :=
  { s with http.httpErrCode := errCode }

/-- The response timer may have run out meanwhile. -/
def tick (reach : Bool) (s : HttpSession) : HttpSession :=
  { s with http.rspReach := s.http.rspReach || reach }

/-- `http_resetStatus`. -/
def httpResetStatus (s : HttpSession) : HttpSession :=
  { s.setHttp s.http.httpResetStatus with header := [], pHttpTxBuf := [] }

/-! ## What the application sets -/

/-- The URL is forgotten. -/
def httpUrlClear (s : HttpSession) : HttpSession :=
  { s with urlInfo := ⟨none, none, none, 80, false⟩ }

/-- `http_init`.  `HTTP_ACTION_NUM`, which no function asks for, is `none` here. -/
def httpInit (s : HttpSession) : HttpSession :=
  let s :=
    if s.isHttpInited then s
    else
      { s with
        http.actionType := .none
        http.stateType := .none
        http.receiveStatus := .header
        http.receiveSize := 0
        http.isContentLen := false
        http.isRunning := false
        http.pBody := none
        http.socketFd := -1
        sendTotalLen := 0
        unsendLen := 0
        isHttpInited := true }
  let s := s.httpUrlClear
  { s with
    http := s.http.httpClearBuf
    header := []
    reqHeaderKv := Vector.replicate httpHeaderKvMax ⟨[], []⟩ }

/-- `http_reqHeaderSet`. -/
def httpReqHeaderSet (reqHeader : Nat) (s : HttpSession) : HttpSession :=
  { s with reqHeader := if reqHeader ≠ 0 ∧ reqHeader ≠ 1 then 0 else reqHeader }

/-- `http_contentTypeSet`. -/
def httpContentTypeSet (contentType : HttpContentType) (s : HttpSession) : HttpSession :=
  { s with contentType := contentType }

/-- The entries before the first one without a key. -/
def usedKv (s : HttpSession) : List HttpHeaderKv :=
  s.reqHeaderKv.toList.takeWhile fun kv => kv.key ≠ []

/-- `http_addHeaderKv`; with all entries used it writes behind the array. -/
def httpAddHeaderKv (key value : List UInt8) (s : HttpSession) : Option (Int × HttpSession) :=
  if httpHeaderKeyLen ≤ (cString key).length ∨ httpHeaderValueLen ≤ (cString value).length then
    some (-1, s)
  else if h : s.usedKv.length < httpHeaderKvMax then
    some (0, { s with
      reqHeaderKv := s.reqHeaderKv.set s.usedKv.length ⟨cString key, cString value⟩ h })
  else none

/-- What `http_urlParse` sees of the variables. -/
def parser (s : HttpSession) : UrlParser :=
  ⟨s.isHttpInited, s.http.httpErrCode, s.http.stateType, s.urlInfo⟩

/-- What it leaves. -/
def withParser (p : UrlParser) (s : HttpSession) : HttpSession :=
  { s with
    isHttpInited := p.isHttpInited
    http.httpErrCode := p.httpErrCode
    http.stateType := p.stateType
    urlInfo := p.urlInfo }

/-- `http_urlParse`, with all of `http_init` where it calls that. -/
def parseUrl (pUrl : List UInt8) (s : HttpSession) : Nat × HttpSession :=
  let url := cString pUrl
  let s := if url.length = 0 ∨ httpUrlMaxLen < url.length ∨ s.isHttpInited then s else s.httpInit
  let r := httpUrlParse ⟨true, true, true⟩ (some pUrl) s.parser
  (r.1, s.withParser r.2)

/-! ## The text of the request -/

def getWord : List UInt8 := ascii ['G', 'E', 'T']
def postWord : List UInt8 := ascii ['P', 'O', 'S', 'T']
def hostName : List UInt8 := ascii ['H', 'o', 's', 't']
def connectionName : List UInt8 := ascii ['C', 'o', 'n', 'n', 'e', 'c', 't', 'i', 'o', 'n']
def keepAlive : List UInt8 := ascii ['k', 'e', 'e', 'p', '-', 'a', 'l', 'i', 'v', 'e']

def contentTypeName : List UInt8 :=
  ascii ['C', 'o', 'n', 't', 'e', 'n', 't', '-', 'T', 'y', 'p', 'e']

def lengthName : List UInt8 :=
  ascii ['C', 'o', 'n', 't', 'e', 'n', 't', '-', 'L', 'e', 'n', 'g', 't', 'h']

/-- `HTTP_BOUNDARY_STR`. -/
def httpBoundaryStr : List UInt8 :=
  List.replicate 8 45 ++ ascii ['b', 'o', 'u', 'n', 'd', 'a', 'r', 'y', 'x', 'm', 'c', 'h', 'e',
    'e', 'r', 'z', 'i', 'n', 'g']

/-- The value of `Content-Type`. -/
def contentTypeValue : HttpContentType → Option (List UInt8)
  | .applicationUrlencoded =>
      some (ascii ['a', 'p', 'p', 'l', 'i', 'c', 'a', 't', 'i', 'o', 'n', '/', 'x', '-', 'w',
        'w', 'w', '-', 'f', 'o', 'r', 'm', '-', 'u', 'r', 'l', 'e', 'n', 'c', 'o', 'd', 'e', 'd'])
  | .textPlain => some (ascii ['t', 'e', 'x', 't', '/', 'p', 'l', 'a', 'i', 'n'])
  | .applicationOctetStream =>
      some (ascii ['a', 'p', 'p', 'l', 'i', 'c', 'a', 't', 'i', 'o', 'n', '/', 'o', 'c', 't', 'e',
        't', '-', 's', 't', 'r', 'e', 'a', 'm'])
  | .mulipartFormData =>
      some (ascii ['m', 'u', 'l', 't', 'i', 'p', 'a', 'r', 't', '/', 'f', 'o', 'r', 'm', '-', 'd',
        'a', 't', 'a', ';', ' ', 'b', 'o', 'u', 'n', 'd', 'a', 'r', 'y', '='] ++ httpBoundaryStr)
  | .applicationJson =>
      some (ascii ['a', 'p', 'p', 'l', 'i', 'c', 'a', 't', 'i', 'o', 'n', '/', 'j', 's', 'o', 'n'])
  | .audioMp3 => some (ascii ['a', 'u', 'd', 'i', 'o', '/', 'm', 'p', '3'])
  | .maxNum => none

/-- `"%s: %s\r\n"`. -/
def fieldLine (name value : List UInt8) : List UInt8 := name ++ [58, 32] ++ value ++ crlf

/-- `:port`, where it is not the one that goes with the scheme. -/
def portText (u : UriInfo) : List UInt8 :=
  if (!u.isHttps ∧ u.port ≠ httpDefaultPort) ∨ (u.isHttps ∧ u.port ≠ httpsDefaultPort) then
    58 :: printDecimal u.port
  else []

/-- The lines that the client writes itself. -/
def requestLines (s : HttpSession) : List UInt8 :=
  (if s.http.actionType = .get then getWord else postWord)
    ++ [32] ++ s.urlInfo.uri.getD [] ++ [32] ++ http11 ++ crlf
    ++ (hostName ++ [58, 32] ++ s.urlInfo.host.getD [] ++ portText s.urlInfo ++ crlf)
    ++ fieldLine connectionName keepAlive
    ++ (match contentTypeValue s.contentType with
        | some v => fieldLine contentTypeName v
        | none => [])
    ++ s.usedKv.flatMap fun kv => fieldLine kv.key kv.value

/-- The `bodySize` bytes in `pBody`. -/
def body (s : HttpSession) : List UInt8 :=
  match s.http.pBody with
  | some m => m.slice 0 s.http.bodySize
  | none => []

/-- `http_parsePostData`: the data that the application posts is taken apart at its first
empty line. -/
def httpParsePostData (s : HttpSession) : HttpSession :=
  match s.http.pBody with
  | none => s
  | some m =>
      if s.http.bodySize = 0 then s
      else
        match strstr (m.slice 0 s.http.bodySize) headerEnd with
        | none => s
        | some n =>
            let headerlen := n + 2
            let bodySize := s.http.bodySize - (n + 4)
            let s := { s with header := m.slice 0 headerlen, http.bodySize := bodySize }
            if bodySize = 0 then s
            else
              let m := (m.memset 0 (headerlen + bodySize + 1)).memcpy 0 (m.ptr (n + 4)) bodySize
              { s with http.pBody := some m }

/-- What `http_constructRequestPack` adds up for its buffer. -/
def txBufSum (s : HttpSession) : Nat :=
  httpDefHeadMaxSize
    + (if s.http.actionType = .get then s.header.length else s.http.bodySize) + 1

/-- The size of the buffer that it asks for: the sum is one of 32 bits. -/
def txBufSize (s : HttpSession) : Nat := s.txBufSum % 4294967296

/-- `http_constructRequestPack`, behind the allocation. -/
def httpConstructRequestPack (s : HttpSession) : HttpSession :=
  let text := if s.reqHeader = 0 then s.requestLines else []
  let (text, s) :=
    if s.http.actionType = .get then (if s.reqHeader = 1 then text ++ s.header else text, s)
    else if s.reqHeader = 1 then (text ++ s.httpParsePostData.header, s.httpParsePostData)
    else (text ++ fieldLine lengthName (printDecimal s.http.bodySize), s)
  let text := text ++ crlf
  let text := if s.http.actionType = .post then text ++ s.body else text
  { s with
    pHttpTxBuf := text
    sendTotalLen := text.length
    unsendLen := text.length
    http.stateType := .send }

/-! ## Sending -/

/-- The buffer is freed. -/
def dropTxBuf (s : HttpSession) : HttpSession :=
  { s with sendTotalLen := 0, unsendLen := 0, pHttpTxBuf := [] }

/-- The loop of `http_sendRequestPack`, with what it returns. -/
def sendLoop : List SendCall → HttpSession → Option (Int × HttpSession)
  | [], _ => none
  | c :: cs, s =>
      match c.takes with
      | none => some (-1, (s.tick c.rspReach).dropTxBuf)
      | some n =>
          let sent := (s.pHttpTxBuf.drop (s.sendTotalLen - s.unsendLen)).take (min n s.unsendLen)
          let s := (s.emit (.socketSend s.http.socketFd sent)).tick c.rspReach
          if s.http.rspReach then some (-1, s.dropTxBuf)
          else
            let s := { s with unsendLen := s.unsendLen - sent.length }
            if s.unsendLen = 0 then some (0, s.dropTxBuf) else sendLoop cs s

/-- `http_sendRequestPack`. -/
def httpSendRequestPack (cs : List SendCall) (s : HttpSession) : Option (Int × HttpSession) :=
  if s.http.socketFd = -1 ∨ s.unsendLen = 0 then some (-1, s) else sendLoop cs s

/-! ## The answer -/

/-- What became of a request is passed on. -/
def deliver (answer : HttpClient × HttpAnswer) (s : HttpSession) : HttpSession :=
  match answer with
  | (h, .rspCb errCode httprspcode contentLen) => (s.setHttp h).rspCb errCode httprspcode contentLen
  | (h, .redirect) => s.setHttp h

def locationName : List UInt8 := ascii ['L', 'o', 'c', 'a', 't', 'i', 'o', 'n', ':']

/-- `http_parseRedirection`: the location, if there is one.  Where no line ends behind it the
source subtracts a null pointer; that has no result. -/
def httpParseRedirection (buf : List UInt8) (len : Nat) : Option (Option (List UInt8)) :=
  match strstr buf locationName with
  | none => some none
  | some n =>
      let ptr := (buf.drop (n + locationName.length)).dropWhile (· = 32)
      (strstr ptr crlf).map fun i => if i ≤ len then some (ptr.take i) else none

/-- `http_redirectRspStatus`; `next` is the attempt it starts. -/
def httpRedirectRspStatus (hop : Hop) (next : HttpSession → Option HttpSession)
    (rxBuf : List UInt8) (s : HttpSession) : Option HttpSession :=
  if !hop.location then
    let s := s.setErr httpAllocMemFail
    some (s.deliver s.http.httpResultRspHandler)
  else
    (httpParseRedirection rxBuf httpUrlMaxLen).bind fun location =>
      match location with
      | some location =>
          if some location ≠ s.urlInfo.url then
            let (ret, s) := s.parseUrl location
            if ret ≠ 0 then some (s.deliver s.http.httpResultRspHandler) else next s
          else
            let s := { s with http.rspcode := httpResponseCodeDnsError }
            some (s.deliver s.http.httpResultRspHandler)
      | none =>
          let s := { s with http.rspcode := httpResponseCodeMethodNotAllowed }
          some (s.deliver s.http.httpResultRspHandler)

/-- The bytes that have been received when a socket has come from `k` to `k'`. -/
def received (k k' : Sock) : List UInt8 := k.bytes.take (k.bytes.length - k'.bytes.length)

/-- `http_receiveRsp`: what is received of a response that redirects is all in `pHttpRxBuf`. -/
def receiveRsp (hop : Hop) (next : HttpSession → Option HttpSession) (s : HttpSession) :
    Option HttpSession :=
  (s.http.httpReceiveRsp (hop.sock.bytes.length + 1) [] hop.sock).bind fun (answer, k) =>
    let s := { s.deliver answer with sock := k }
    match answer.2 with
    | .rspCb _ _ _ => some s
    | .redirect => s.httpRedirectRspStatus hop next (received hop.sock k)

/-- `http_actionSendData`, for `HTTP_ACTION_GET` and `HTTP_ACTION_POST`. -/
def httpActionSendData (hop : Hop) (next : HttpSession → Option HttpSession) (s : HttpSession) :
    Option HttpSession :=
  if !hop.txBuf then
    some ((s.httpResetStatus.setErr httpAllocMemFail).rspCb httpAllocMemFail 0 0)
  else
    (s.httpConstructRequestPack.httpSendRequestPack hop.sends).bind fun (ret, s) =>
      let s := s.tick hop.sendReach
      if s.http.rspReach then
        some ((s.httpResetStatus.setErr httpWaitHttpRspTimeout).rspCb httpWaitHttpRspTimeout 0 0)
      else if ret = 0 then
        { s with
          http.stateType := .receiveStart
          http.receiveStatus := .header
          http.receiveSize := 0 }.receiveRsp hop next
      else
        some ((s.httpResetStatus.setErr httpSockWrErr).rspCb httpSockWrErr 0 0)

/-- The end of `http_socketCreatAndConnect` behind the label `EXIT`, with an error. -/
def connectFails (errCode : Nat) (s : HttpSession) : Int × HttpSession :=
  (-1, (s.setErr errCode).httpResetStatus)

/-- `http_socketCreatAndConnect`, with what it returns. -/
def httpSocketCreatAndConnect (hop : Hop) (next : HttpSession → Option HttpSession)
    (s : HttpSession) : Option (Int × HttpSession) :=
  let s := s.setHttp s.http.httpCloseSocket
  match hop.socketFd with
  | none => some (s.connectFails httpSockCreateErr)
  | some fd =>
      let s := { s with http.socketFd := fd }.emit (.socketCreate fd)
      if !hop.bound then some (s.connectFails httpSockCreateErr)
      else
        let s := s.tick hop.createReach
        if s.http.rspReach then some (s.connectFails httpWaitHttpRspTimeout)
        else
          let s := s.emit (.socketConnect fd (s.urlInfo.host.getD []) s.urlInfo.port)
          if !hop.connected then some (s.connectFails httpSockConnectErr)
          else
            let s := s.tick hop.connectReach
            if s.http.rspReach then some (s.connectFails httpWaitHttpRspTimeout)
            else
              let s := { s with http.stateType := .connected }
              if s.urlInfo.isHttps ∧ !hop.tlsConnected then
                some (s.connectFails httpSockConnectErr)
              else (s.httpActionSendData hop next).map fun s => (0, s)

/-- The end of a request behind the label `EXIT`, in three functions. -/
def exitRequest (s : HttpSession) : HttpSession :=
  { s with http.isRunning := false }.rspCb s.http.httpErrCode 0 0

/-- `http_getOrPostReqHandle`. -/
def httpGetOrPostReqHandle : List Hop → HttpSession → Option HttpSession
  | [], _ => none
  | hop :: hops, s =>
      if !hop.resolved then
        some { s.setErr httpDnsErr with http.stateType := .urlReady }.exitRequest
      else
        let s := { s with http.stateType := .ipGot, http.rspReach := false }
        (s.httpSocketCreatAndConnect hop (httpGetOrPostReqHandle hops)).map fun (ret, s) =>
          if ret ≠ 0 then s.exitRequest else s

/-! ## `http_get` and `http_post` -/

/-- What `http_get` and `http_post` set before a request. -/
def beginRequest (actionType : HttpActionType) (s : HttpSession) : HttpSession :=
  { s with
    http.isRunning := true
    http.actionType := actionType
    http.httpCurChunkLen := 0
    http.readCurLen := 0
    http.bodySize := 0
    http.httpErrCode := 0
    http.gHttpChunkTail := { buf := fun _ => 0, cnt := 0 }
    header := [] }

/-- What they ask first: why there is no request. -/
def refused (s : HttpSession) : Option HttpSession :=
  if s.http.isRunning then some ((s.setErr httpBusy).rspCb httpBusy 0 0)
  else if s.http.stateType ≠ .urlReady then some (s.setErr httpEmptyUrl).exitRequest
  else if (s.urlInfo.host.getD []).length = 0 then some (s.setErr httpUrlErr).exitRequest
  else none

/-- `http_get`; a null pointer or no length is a header without bytes. -/
def httpGet (pHeaderStr : List UInt8) (hops : List Hop) (s : HttpSession) : Option HttpSession :=
  match s.refused with
  | some s => some s
  | none =>
      let s := s.beginRequest .get
      if s.reqHeader = 1 then
        if pHeaderStr = [] then some (s.setErr httpInvalidParam).exitRequest
        else { s with header := pHeaderStr }.httpGetOrPostReqHandle hops
      else s.httpGetOrPostReqHandle hops

/-- `http_post`; likewise. -/
def httpPost (pData : List UInt8) (hops : List Hop) (s : HttpSession) : Option HttpSession :=
  match s.refused with
  | some s => some s
  | none =>
      if pData = [] then some (s.setErr httpInvalidParam).exitRequest
      else
        let s := s.beginRequest .post
        { s with http.pBody := some (Mem.ofList pData), http.bodySize := pData.length }
          |>.httpGetOrPostReqHandle hops

end HttpSession

end IntercomSalve
