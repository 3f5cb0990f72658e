/-
# `HttpClient` — the HTTP client that fetches the firmware image

`httpClient.c` keeps one request in file-level variables: `httpInfo`, the
error code, and the counters of the body reader.  They are one record here,
`HttpClient`, under the source's names; every function takes it and returns it.
A buffer that is handed to a parser is the list of its bytes, with the zero
byte that ends it after the last one; a buffer that is written at an offset is
a memory.

The socket is what it still has to give: the segments that arrive, cut in any
way, and what happens after the last one (`Sock`).  A failure ends the download
wherever it strikes, so there is nothing to read behind it.

`malloc` and the calls on the timer and the socket options succeed, and so do those
that close a socket (`httpCloseSocket`); the copy of the header that is kept for the
log, the request and the TLS socket are left out, and so is what a redirection leads
to (`HttpAnswer.redirect`): another request, or an answer with an error code.
-/
import IntercomSalve.Lib.CString
import IntercomSalve.State

namespace IntercomSalve

open CString

/-! ## The socket -/

/-- What happens when nothing more arrives. -/
inductive SockEnd where
  /-- The peer has closed the connection. -/
  | closed
  /-- `KING_SocketRecv` returns -1. -/
  | recvError
  /-- `KING_SocketSelect` returns -1. -/
  | selectError
  /-- The wait ends: the response timer of the request, or the one of the read. -/
  | timeout
deriving Repr, DecidableEq

/-- What a socket still delivers. -/
structure Sock where
  segments : List (List UInt8)
  ending : SockEnd
deriving Repr, DecidableEq

namespace Sock

/-- All the bytes that still arrive. -/
def bytes (k : Sock) : List UInt8 := k.segments.flatten

/-- At most `size` bytes of the next segment; `none` when nothing more arrives. -/
def recvFrom (size : Nat) : List (List UInt8) → Option (List UInt8 × List (List UInt8))
  | [] => none
  | [] :: rest => recvFrom size rest
  | (b :: s) :: rest => some ((b :: s).take size, (b :: s).drop size :: rest)

/-- `KING_SocketRecv (fd, buf, size, 0)` where it returns data. -/
def recv (k : Sock) (size : Nat) : Option (List UInt8 × Sock) :=
  (recvFrom size k.segments).map fun (bs, rest) => (bs, { k with segments := rest })

theorem recvFrom_none {size : Nat} :
    ∀ {ss : List (List UInt8)}, recvFrom size ss = none → ss.flatten = []
  | [], _ => rfl
  | [] :: _, h => by simpa using recvFrom_none (by simpa only [recvFrom] using h)
  | (_ :: _) :: _, h => by simp [recvFrom] at h

theorem recvFrom_some {size : Nat} (hsize : 0 < size) {bs : List UInt8}
    {rest : List (List UInt8)} :
    ∀ {ss : List (List UInt8)}, recvFrom size ss = some (bs, rest) →
      bs ≠ [] ∧ bs.length ≤ size ∧ ss.flatten = bs ++ rest.flatten
  | [], h => by simp [recvFrom] at h
  | [] :: _, h => by simpa using recvFrom_some hsize (by simpa only [recvFrom] using h)
  | (b :: s) :: ss, h => by
    simp only [recvFrom, Option.some.injEq, Prod.mk.injEq] at h
    obtain ⟨rfl, rfl⟩ := h
    refine ⟨by simp [Nat.ne_of_gt hsize], List.length_take_le _ _, ?_⟩
    simp only [List.flatten_cons, ← List.append_assoc, List.take_append_drop]

/-- Nothing is returned only when nothing more arrives. -/
theorem bytes_of_recv_none {k : Sock} {size : Nat} (h : k.recv size = none) : k.bytes = [] :=
  recvFrom_none (Option.map_eq_none_iff.mp h)

/-- What is returned is a piece off the front of what arrives. -/
theorem bytes_of_recv_some {k k' : Sock} {size : Nat} {bs : List UInt8} (hsize : 0 < size)
    (h : k.recv size = some (bs, k')) :
    bs ≠ [] ∧ bs.length ≤ size ∧ k.bytes = bs ++ k'.bytes := by
  obtain ⟨⟨bs', rest⟩, hr, heq⟩ := Option.map_eq_some_iff.mp h
  cases heq
  exact recvFrom_some hsize hr

end Sock

/-! ## The state of the client -/

/-- `HTTP_ACTION_TYPE_E`. -/
inductive HttpActionType where
  | none | url | get | post | read
deriving Repr, DecidableEq

/-- `HTTP_STATE_TYPE_E`. -/
inductive HttpStateType where
  | none | urlGetting | urlReady | ipGetting | ipGot | connecting | connected | send
  | receiveStart | read
deriving Repr, DecidableEq

/-- `HTTP_RECEIVE_STATUS_TYPE_E`. -/
inductive HttpReceiveStatus where
  | header | content | chunk | complete
deriving Repr, DecidableEq

/-- `HTTP_CHUNK_TAIL_BUF_T`. -/
structure HttpChunkTail where
  buf : Mem
  cnt : Nat

/-- `httpInfo` and the other variables of `httpClient.c` that the download uses. -/
structure HttpClient where
  socketFd : Int
  actionType : HttpActionType
  stateType : HttpStateType
  rspcode : Int
  pBody : Option Mem
  bodySize : Nat
  rspReach : Bool
  receiveSize : Nat
  bodyBufLen : Nat
  isContentLen : Bool
  receiveStatus : HttpReceiveStatus
  isRunning : Bool
  httpCurChunkLen : Nat
  httpErrCode : Nat
  readCurLen : Nat
  pReadData : Mem
  gReadLen : Nat
  gHttpChunkTail : HttpChunkTail

/-- What becomes of a request: a call of `rspCb`, or the way of a redirection. -/
inductive HttpAnswer where
  | rspCb (errCode : Nat) (httprspcode : Int) (contentLen : Nat)
  | redirect
deriving Repr, DecidableEq

/-! ## Constants -/

def httpUnknownErr : Nat := 701
def httpTimeout : Nat := 702
def httpNwErr : Nat := 710
def httpSockRdErr : Nat := 717
def httpSockClose : Nat := 719
def httpWaitHttpRspTimeout : Nat := 728
def httpInvalidParam : Nat := 730

def httpResponseCodeOk : Int := 200
def httpResponseCodePartialContent : Int := 206
def httpResponseCodeNetworkError : Int := 601

/-- `HTTP_RX_BUF_DEFAULT_SIZE`. -/
def httpRxBufDefaultSize : Nat := 1460

/-- `HTTP_RX_RSP_LEN`: the body bytes after which the application is told. -/
def httpRxRspLen : Nat := 2048

def httpHexStrMaxSize : Nat := 8
def httpChunkTailSize : Nat := httpHexStrMaxSize + 4 + 1

/-- The bytes of a literal. -/
def ascii (cs : List Char) : List UInt8 := cs.map fun c => UInt8.ofNat c.toNat

def crlf : List UInt8 := [13, 10]
def headerEnd : List UInt8 := crlf ++ crlf

def contentLengthName : List UInt8 :=
  ascii ['C', 'o', 'n', 't', 'e', 'n', 't', '-', 'L', 'e', 'n', 'g', 't', 'h', ':']

def transferEncodingName : List UInt8 :=
  ascii ['T', 'r', 'a', 'n', 's', 'f', 'e', 'r', '-', 'E', 'n', 'c', 'o', 'd', 'i', 'n', 'g', ':']

def chunkedName : List UInt8 := ascii ['c', 'h', 'u', 'n', 'k', 'e', 'd']

def http10 : List UInt8 := ascii ['H', 'T', 'T', 'P', '/', '1', '.', '0']
def http11 : List UInt8 := ascii ['H', 'T', 'T', 'P', '/', '1', '.', '1']

namespace HttpClient

/-! ## Clearing and closing -/

/-- `http_clearBuf`. -/
def httpClearBuf (h : HttpClient) : HttpClient :=
  if h.pBody.isSome then { h with pBody := none, bodySize := 0, bodyBufLen := 0 } else h

/-- `http_closeSocket`, where `KING_SocketClose` and `httpTls_close` succeed; with -1 from one of
them the source keeps `socketFd`. -/
def httpCloseSocket (h : HttpClient) : HttpClient := { h with socketFd := -1 }

/-- `http_resetStatus`. -/
def httpResetStatus (h : HttpClient) : HttpClient :=
  let h := { h with rspReach := false }
  let h := { httpClearBuf h with isRunning := false }
  let stateType :=
    match h.stateType with
    | .none | .urlGetting => HttpStateType.none
    | _ => .urlReady
  httpCloseSocket { h with stateType := stateType, receiveSize := 0 }

@[simp] theorem httpResetStatus_pReadData (h : HttpClient) :
    h.httpResetStatus.pReadData = h.pReadData := by
  simp only [httpResetStatus, httpClearBuf, httpCloseSocket]
  split <;> rfl

/-! ## Storing the body -/

/-- `n` bytes go behind those the reader of the body has taken, or into `pBody`
behind those received. -/
def store (h : HttpClient) (src : Mem) (n : Nat) : HttpClient :=
  if h.stateType = .read then
    if h.actionType = .read then
      { h with pReadData := h.pReadData.memcpy h.gReadLen src n
               gReadLen := (h.gReadLen + n) % 4294967296 }
    else h
  else { h with pBody := h.pBody.map fun m => m.memcpy h.receiveSize src n }

@[simp] theorem store_receiveSize (h : HttpClient) (src : Mem) (n : Nat) :
    (h.store src n).receiveSize = h.receiveSize := by
  unfold store
  split
  · split <;> rfl
  · rfl

@[simp] theorem store_bodySize (h : HttpClient) (src : Mem) (n : Nat) :
    (h.store src n).bodySize = h.bodySize := by
  unfold store
  split
  · split <;> rfl
  · rfl

/-- Behind the bytes in `pBody`, while the application has not begun to read. -/
theorem store_pBody {h : HttpClient} (hst : h.stateType ≠ .read) {m : Mem} (hm : h.pBody = some m)
    (src : Mem) (n : Nat) :
    h.store src n = { h with pBody := some (m.memcpy h.receiveSize src n) } := by
  rw [store, if_neg hst, hm]
  rfl

/-- Behind the bytes in `pReadData`, while it reads. -/
theorem store_pReadData {h : HttpClient} (hst : h.stateType = .read) (hact : h.actionType = .read)
    (src : Mem) (n : Nat) :
    h.store src n = { h with pReadData := h.pReadData.memcpy h.gReadLen src n
                             gReadLen := (h.gReadLen + n) % 4294967296 } := by
  rw [store, if_pos hst, if_pos hact]

/-- `http_contentAppend`. -/
def httpContentAppend (h : HttpClient) (input : List UInt8) (size : Nat) : Bool × HttpClient :=
  if size = 0 then (false, { h with httpErrCode := httpUnknownErr })
  else if h.bodySize < (h.receiveSize + size) % 4294967296 then
    (false, { h with httpErrCode := httpUnknownErr })
  else
    let h := h.store (Mem.ofList input) size
    let h := { h with receiveSize := (h.receiveSize + size) % 4294967296 }
    let h := if h.receiveSize = h.bodySize then { h with receiveStatus := .complete } else h
    (decide (h.receiveSize ≤ h.bodySize), h)

/-- What fits into the body is stored, and the last byte completes it. -/
theorem httpContentAppend_of_fits {h : HttpClient} {bs : List UInt8} (hne : bs ≠ [])
    (hfit : h.receiveSize + bs.length ≤ h.bodySize) (hsize : h.bodySize < 4294967296) :
    httpContentAppend h bs bs.length
      = (true, { h.store (Mem.ofList bs) bs.length with
          receiveSize := h.receiveSize + bs.length
          receiveStatus := if h.receiveSize + bs.length = h.bodySize then .complete
            else (h.store (Mem.ofList bs) bs.length).receiveStatus }) := by
  have hlen : bs.length ≠ 0 := by simpa using hne
  have hmod : (h.receiveSize + bs.length) % 4294967296 = h.receiveSize + bs.length :=
    Nat.mod_eq_of_lt (by omega)
  simp only [httpContentAppend, if_neg hlen, hmod, store_receiveSize, store_bodySize]
  rw [if_neg (by omega)]
  by_cases heq : h.receiveSize + bs.length = h.bodySize
  · simp [heq]
  · simp [heq, hfit]

/-! ## Decoding chunks -/

/-- The first part of `http_chunkAppend`: the tail that the last call kept is
completed.  Either the call returns, or it goes on at an offset of the input
with that many bytes. -/
def httpChunkTail (h : HttpClient) (input : List UInt8) (size : Nat) :
    Except (Bool × HttpClient) (Nat × Nat × HttpClient) :=
  let cnt := h.gHttpChunkTail.cnt
  if cnt = 0 then .ok (0, size, h)
  else
    let tailSpace := sub32 (httpChunkTailSize - 1) cnt
    let tempLen := if tailSpace < size then tailSpace else size
    let buf := h.gHttpChunkTail.buf.memcpy cnt (Mem.ofList input) tempLen
    let buf := buf.memcpy (cnt + tempLen) (Mem.ofList [0]) 1
    let h := { h with gHttpChunkTail := { h.gHttpChunkTail with buf := buf } }
    let clear := { h with gHttpChunkTail := { buf := fun _ => 0, cnt := 0 } }
    if buf 0 = 13 ∧ buf 1 = 10 then .ok (1, size - 1, clear)
    else
      let tail := buf.slice 0 httpChunkTailSize
      match strstr tail crlf with
      | some n =>
        if httpHexStrMaxSize < n then .error (false, h)
        else
          let hexValue := strtoul 16 (tail.take n)
          let tempLen := sub32 (n + 2) cnt
          .ok (tempLen, sub32 size tempLen,
            { clear with httpCurChunkLen := hexValue, bodySize := hexValue })
      | none =>
        .error (true, { h with gHttpChunkTail := { buf := buf, cnt := cnt + tempLen } })

/-- The second part: the rest of the chunk that the last call left off in. -/
def httpChunkRest (h : HttpClient) (input : List UInt8) (iss size : Nat) :
    Nat × Nat × HttpClient :=
  if h.httpCurChunkLen = 0 then (iss, size, h)
  else
    let rxLen := if h.httpCurChunkLen ≤ size then h.httpCurChunkLen else size
    let h := h.store ((Mem.ofList input).ptr iss) rxLen
    let h := { h with httpCurChunkLen := h.httpCurChunkLen - rxLen
                      receiveSize := (h.receiveSize + rxLen) % 4294967296 }
    let remaining := size - rxLen
    if h.httpCurChunkLen = 0 ∧ 2 ≤ remaining then (iss + rxLen + 2, remaining - 2, h)
    else (iss + rxLen, remaining, h)

/-- The loop over the chunks in the input.  A pass moves `iss` on, so that
`fuel` passes see the whole of an input that is no longer. -/
def httpChunkLoop : Nat → List UInt8 → Nat → Nat → HttpClient →
    Except (Bool × HttpClient) (Nat × Nat × HttpClient)
  | 0, _, iss, remaining, h => .ok (iss, remaining, h)
  | fuel + 1, input, iss, remaining, h =>
    if h.httpCurChunkLen ≠ 0 then .ok (iss, remaining, h)
    else
      match strstr (input.drop iss) crlf with
      | none => .ok (iss, remaining, h)
      | some n =>
        if h.rspReach then .error (false, { h with httpErrCode := httpWaitHttpRspTimeout })
        else if httpHexStrMaxSize < n then .error (false, { h with httpErrCode := httpUnknownErr })
        else if n = 0 then httpChunkLoop fuel input (iss + 2) (sub32 remaining 2) h
        else
          let hexValue := strtoul 16 ((input.drop iss).take n)
          let h := { h with httpCurChunkLen := hexValue, bodySize := hexValue }
          let offset := (n + hexValue + 4) % 4294967296
          if hexValue = 0 ∧ remaining = offset then
            .error (true, { h with receiveStatus := .complete })
          else
            let (tempLen, remaining) :=
              if remaining < offset then
                if sub32 offset 2 ≤ remaining then
                  (hexValue, sub32 (sub32 (sub32 remaining n) 2) hexValue)
                else (sub32 (sub32 remaining n) 2, 0)
              else (hexValue, sub32 (sub32 (sub32 remaining hexValue) n) 2)
            let token := iss + n + 2
            let readSize := if tempLen < h.httpCurChunkLen then tempLen else h.httpCurChunkLen
            let (token, h) :=
              if 0 < tempLen then
                let h := h.store ((Mem.ofList input).ptr token) readSize
                (token + readSize,
                  { h with receiveSize := (h.receiveSize + readSize) % 4294967296
                           httpCurChunkLen := h.httpCurChunkLen - readSize })
              else (token, h)
            if h.httpCurChunkLen = 0 ∧ 2 ≤ remaining then
              httpChunkLoop fuel input (token + 2) (remaining - 2) h
            else httpChunkLoop fuel input token remaining h

/-- The last part: what is left over is kept for the next call, unless it is too much. -/
def httpChunkKeep (h : HttpClient) (input : List UInt8) (iss remaining : Nat) : HttpClient :=
  if 0 < remaining ∧ remaining ≤ httpChunkTailSize - 1 then
    { h with gHttpChunkTail :=
        { buf := h.gHttpChunkTail.buf.memcpy 0 ((Mem.ofList input).ptr iss) remaining
          cnt := h.gHttpChunkTail.cnt + remaining } }
  else h

/-- `http_chunkAppend`. -/
def httpChunkAppend (h : HttpClient) (input : List UInt8) (size : Nat) : Bool × HttpClient :=
  if size = 0 then (false, { h with httpErrCode := httpUnknownErr })
  else
    match httpChunkTail h input size with
    | .error r => r
    | .ok (iss, size, h) =>
      let (iss, remaining, h) := httpChunkRest h input iss size
      match httpChunkLoop (input.length + 1) input iss remaining h with
      | .error r => r
      | .ok (iss, remaining, h) => (true, httpChunkKeep h input iss remaining)

/-- `http_appendRsp`. -/
def httpAppendRsp (h : HttpClient) (input : List UInt8) (size : Nat) : Bool × HttpClient :=
  match h.receiveStatus with
  | .content => httpContentAppend h input size
  | .chunk => httpChunkAppend h input size
  | .complete | .header => (true, h)

/-! ## The header of the response -/

/-- `http_ParseRspCode`. -/
def httpParseRspCode (buf : List UInt8) : Int :=
  if !startsWith buf http10 && !startsWith buf http11 then 0
  else strtol 10 ((buf.drop http11.length).dropWhile (· = 32))

/-- The first part of `http_decodeRspHeader`: how long the body is. -/
def httpDecodeLength (h : HttpClient) (rxBuf : List UInt8) : HttpClient :=
  match strstr rxBuf contentLengthName with
  | some n =>
    let ptr := (rxBuf.drop (n + contentLengthName.length)).dropWhile (· = 32)
    { h with bodySize := strtoul 10 ptr, receiveStatus := .content, isContentLen := true }
  | none =>
    match strstr rxBuf transferEncodingName with
    | none => h
    | some n =>
      let ptr := (rxBuf.drop (n + transferEncodingName.length)).dropWhile (· = 32)
      if startsWith ptr chunkedName then
        let h := { h with receiveStatus := .chunk, isContentLen := false }
        match strstr ptr headerEnd with
        | some n => { h with bodySize := strtoul 16 (ptr.drop (n + headerEnd.length)) }
        | none => h
      else h

/-- `http_decodeRspHeader`, called with a buffer that has a header in it. -/
def httpDecodeRspHeader (h : HttpClient) (rxBuf : List UInt8) : Bool × HttpClient :=
  if rxBuf = [] then (false, { h with httpErrCode := httpUnknownErr })
  else
    let h := httpDecodeLength h rxBuf
    let headerSize := (strstr rxBuf headerEnd).getD 0 + headerEnd.length
    if h.receiveStatus = .content ∧ h.bodySize = 0 then
      (true, { h with receiveStatus := .complete })
    else if h.receiveStatus = .complete then (true, h)
    else if headerSize ≤ rxBuf.length then
      let h := { h with pBody := some fun _ => 0 }
      if headerSize < rxBuf.length then
        -- what the append returns is not looked at
        (true, (httpAppendRsp h (rxBuf.drop headerSize) (rxBuf.length - headerSize)).2)
      else (true, h)
    else (true, h)

/-! ## The answer to the application -/

/-- `http_resultRspHandler`. -/
def httpResultRspHandler (h : HttpClient) : HttpClient × HttpAnswer :=
  let h := { h with isRunning := false }
  let h := if h.receiveStatus = .complete then httpCloseSocket h else h
  let h := { h with stateType := .urlReady }
  (h, .rspCb h.httpErrCode h.rspcode (if h.isContentLen then h.bodySize else 0))

theorem httpResultRspHandler_eq (h : HttpClient) :
    h.httpResultRspHandler
      = ({ h with
            isRunning := false
            stateType := .urlReady
            socketFd := if h.receiveStatus = .complete then -1 else h.socketFd },
          .rspCb h.httpErrCode h.rspcode (if h.isContentLen then h.bodySize else 0)) := by
  by_cases hst : h.receiveStatus = .complete
  · simp only [httpResultRspHandler, if_pos hst, httpCloseSocket]
  · simp only [httpResultRspHandler, if_neg hst]

/-- `http_rspStatus`. -/
def httpRspStatus (h : HttpClient) : HttpClient × HttpAnswer :=
  let h := { h with rspReach := false }
  if h.rspcode ∈ [301, 308, 300, 302, 303, 307] then (h, .redirect)
  else httpResultRspHandler h

/-- The condition under which both branches of the receive loop answer. -/
def rspReady (h : HttpClient) : Bool :=
  h.receiveStatus = .complete
    || (h.receiveStatus = .content && httpRxRspLen ≤ h.receiveSize && h.receiveSize ≤ h.bodySize)
    || (h.receiveStatus = .chunk && httpRxRspLen ≤ h.receiveSize)

/-- The answer they give. -/
def rspAnswer (h : HttpClient) : HttpClient × HttpAnswer :=
  httpRspStatus { h with httpErrCode := 0, bodyBufLen := h.receiveSize }

/-- The end of `http_receiveRsp` after a `break` with an error code. -/
def receiveFail (h : HttpClient) (errcode : Nat) : HttpClient × HttpAnswer :=
  ({ httpResetStatus h with httpErrCode := errcode }, .rspCb errcode 0 0)

/-- The end of `http_receiveRsp` behind the label `EXIT`. -/
def receiveExit (h : HttpClient) (errcode : Nat) : HttpClient × HttpAnswer :=
  ({ httpResetStatus h with rspcode := httpResponseCodeNetworkError, httpErrCode := errcode },
    .rspCb errcode httpResponseCodeNetworkError 0)

/-- The loop of `http_receiveRsp`, with the bytes in `pTempBuffer`. -/
def httpReceiveRsp : Nat → List UInt8 → HttpClient → Sock →
    Option ((HttpClient × HttpAnswer) × Sock)
  | 0, _, _, _ => none
  | fuel + 1, temp, h, k =>
    if h.socketFd = -1 then some (receiveFail h httpNwErr, k)
    else if h.rspReach then some (receiveFail h httpWaitHttpRspTimeout, k)
    else
      match k.recv httpRxBufDefaultSize with
      | none =>
        let errcode :=
          match k.ending with
          | .closed => httpSockClose
          | .timeout => httpWaitHttpRspTimeout
          | .recvError | .selectError => httpSockRdErr
        some (receiveFail h errcode, k)
      | some (bs, k) =>
        if h.receiveStatus = .header then
          let temp := temp ++ bs
          if (strstr temp headerEnd).isNone then httpReceiveRsp fuel temp h k
          else
            let h := { h with rspcode := (httpParseRspCode temp).bmod 65536 }
            if h.rspcode = httpResponseCodeOk ∨ h.rspcode = httpResponseCodePartialContent then
              let (ok, h) := httpDecodeRspHeader h temp
              if !ok then some (receiveExit h httpNwErr, k)
              else if h.rspReady then some (rspAnswer h, k)
              else httpReceiveRsp fuel temp h k
            else some (httpRspStatus h, k)
        else
          let (ok, h) := httpAppendRsp h bs bs.length
          if !ok then some (receiveExit h httpNwErr, k)
          else if h.rspReady then some (rspAnswer h, k)
          else httpReceiveRsp fuel temp h k

/-- The client as `http_get` and a request that was sent leave it, on the socket `fd`. -/
def httpGetSent (h : HttpClient) (fd : Nat) : HttpClient :=
  { h with
    isRunning := true
    actionType := .get
    httpCurChunkLen := 0
    readCurLen := 0
    bodySize := 0
    httpErrCode := 0
    gHttpChunkTail := { buf := fun _ => 0, cnt := 0 }
    rspReach := false
    socketFd := fd
    stateType := .receiveStart
    receiveStatus := .header
    receiveSize := 0 }

/-! ## Reading the body -/

/-- What `http_readreceiveRsp` returns, and the `*realSize` it leaves where the
caller has put 0. -/
structure ReadRsp where
  ret : Nat
  realSize : Nat
  http : HttpClient
  sock : Sock

/-- The end of `http_readreceiveRsp` behind its loop. -/
def readreceiveEnd (h : HttpClient) (k : Sock) (errcode : Nat) : ReadRsp :=
  if errcode ≠ 0 then { ret := errcode, realSize := 0, http := httpResetStatus h, sock := k }
  else { ret := 1, realSize := h.gReadLen, http := h, sock := k }

/-- The loop of `http_readreceiveRsp`. -/
def readreceiveLoop (dataLen : Nat) : Nat → Nat → HttpClient → Sock → Option ReadRsp
  | 0, _, _, _ => none
  | fuel + 1, recvCnt, h, k =>
    if dataLen ≤ recvCnt then some (readreceiveEnd h k 0)
    else if h.socketFd = -1 then some (readreceiveEnd h k httpNwErr)
    else
      let readSize :=
        if httpRxBufDefaultSize < dataLen - recvCnt then httpRxBufDefaultSize else dataLen - recvCnt
      match k.recv readSize with
      | none =>
        match k.ending with
        | .selectError => some (readreceiveEnd h k httpNwErr)
        | .timeout => some (readreceiveEnd h k httpTimeout)
        | .recvError => some (readreceiveEnd h k httpSockRdErr)
        | .closed =>
          let h := { h with receiveStatus := .complete }
          if h.stateType = .read then
            -- `*realSize` is not set on the way to `RESULT_OK`
            some { ret := 0, realSize := 0, http := httpResetStatus h, sock := k }
          else some (readreceiveEnd h k 0)
      | some (bs, k) =>
        let (ok, h) := httpAppendRsp h bs bs.length
        if !ok then some (readreceiveEnd h k h.httpErrCode)
        else if h.stateType = .read ∧ h.receiveStatus = .complete then
          some { ret := 0, realSize := h.gReadLen, http := httpResetStatus h, sock := k }
        else readreceiveLoop dataLen fuel (recvCnt + bs.length) h k

/-- `http_readreceiveRsp`: every pass reads a byte at least. -/
def httpReadreceiveRsp (dataLen : Nat) (h : HttpClient) (k : Sock) : Option ReadRsp :=
  readreceiveLoop dataLen (dataLen + 1) 0 { h with gReadLen := 0 } k

/-- What `http_readContentDataAndLen` returns and stores. -/
structure ReadContent where
  ret : Nat
  pData : Mem
  actualDataLen : Nat
  readEnd : Bool
  http : HttpClient
  sock : Sock

/-- How many of `dataLen` bytes are taken from `pBody`. -/
def bufferedLen (h : HttpClient) (dataLen : Nat) : Nat :=
  let left := sub32 h.bodyBufLen h.readCurLen
  if h.pBody.isSome ∧ 0 < left then (if dataLen ≤ left then dataLen else left) else 0

/-- The last part of `http_readContentDataAndLen`, behind the call of `http_readreceiveRsp`,
with what is in `pData`, `*actualDataLen` and `*readEnd`. -/
def readContentEnd (readLen : Nat) (pData : Mem) (actualDataLen : Nat) (readEnd : Bool)
    (r : ReadRsp) : ReadContent :=
  if r.ret = 0 then
    { ret := 0, pData := pData.memcpy readLen r.http.pReadData r.realSize
      actualDataLen := r.realSize + readLen, readEnd := true
      http := { r.http with readCurLen := 0 }, sock := r.sock }
  else if r.ret = 1 then
    { ret := 0, pData := pData.memcpy readLen r.http.pReadData r.realSize
      actualDataLen := r.realSize + readLen, readEnd := false
      http := r.http, sock := r.sock }
  else
    { ret := r.ret, pData := pData, actualDataLen := actualDataLen, readEnd := readEnd
      http := r.http, sock := r.sock }

/-- `http_readContentDataAndLen`, with what is in `*actualDataLen` and `*readEnd`. -/
def httpReadContentDataAndLen (dataLen actualDataLen : Nat) (readEnd : Bool) (h : HttpClient)
    (k : Sock) : Option ReadContent :=
  if dataLen = 0 then
    some { ret := httpInvalidParam, pData := fun _ => 0, actualDataLen := actualDataLen
           readEnd := readEnd, http := h, sock := k }
  else
    let h := { h with isRunning := true, httpErrCode := 0, actionType := .read }
    let readLen := h.bufferedLen dataLen
    let pData := Mem.memcpy (fun _ => 0) 0 ((h.pBody.getD fun _ => 0).ptr h.readCurLen) readLen
    let h := { h with readCurLen := (h.readCurLen + readLen) % 4294967296 }
    if h.readCurLen < h.bodyBufLen ∧ h.stateType ≠ .read then
      some { ret := 0, pData := pData, actualDataLen := readLen, readEnd := false
             http := { h with isRunning := false }, sock := k }
    else if h.receiveStatus = .complete then
      some { ret := 0, pData := pData, actualDataLen := readLen, readEnd := true
             http := { httpResetStatus h with readCurLen := 0 }, sock := k }
    else
      let h := { h with stateType := .read }
      let h := if h.pBody.isSome then { h with pBody := none, bodyBufLen := 0 } else h
      let h := { h with pReadData := fun _ => 0 }
      (httpReadreceiveRsp (dataLen - readLen) h k).map
        (readContentEnd readLen pData actualDataLen readEnd)

end HttpClient

end IntercomSalve
