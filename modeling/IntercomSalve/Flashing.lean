/-
# `Flashing` — whether only a complete image is flashed

While a response arrives the client has the beginning of the body, in `pBody`
first (`Receiving`), then partly in the file and partly still in `pBody`
(`Buffered`), and at last in the file alone, with the rest on the socket
(`Reading`).  What is in the file is a beginning of the body throughout.

The handler of message 122 flashes it when its loop is left, and the loop is
left not only behind the last byte: an error breaks out of it, and a peer that
closes early counts as the end of the body.  So an image is flashed as soon as
the download has begun, and it is the whole one exactly if all of the response
arrives (`flashesOnlyComplete_iff`).
-/
import IntercomSalve.Download

namespace IntercomSalve

open CString HttpClient

/-- Bytes that come next in a list: those before are as many more. -/
theorem take_add_of_next {l bs rest : List UInt8} {n : Nat} (h : bs ++ rest <+: l.drop n) :
    l.take (n + bs.length) = l.take n ++ bs := by
  obtain ⟨u, hu⟩ := h
  rw [List.take_add, ← hu, List.append_assoc, List.take_left]

/-- And those behind them come after. -/
theorem drop_add_of_next {l bs rest : List UInt8} {n : Nat} (h : bs ++ rest <+: l.drop n) :
    rest <+: l.drop (n + bs.length) := by
  obtain ⟨u, hu⟩ := h
  rw [← List.drop_drop, ← hu, List.append_assoc, List.drop_left]
  exact List.prefix_append _ _

theorem length_le_of_prefix_drop {l bs : List UInt8} {n : Nat} (h : bs <+: l.drop n) :
    bs.length ≤ l.length - n := by
  simpa using h.length_le

/-! ## While the response is received -/

/-- The body is being received into `pBody`, `rest` still arrives, and it is too early to
answer. -/
structure Receiving (r : HttpResponse) (h : HttpClient) (rest : List UInt8) : Prop where
  receiveStatus : h.receiveStatus = .content
  bodySize : h.bodySize = r.body.length
  rspcode : h.rspcode = r.status
  status : r.status = httpResponseCodeOk ∨ r.status = httpResponseCodePartialContent
  socketFd : h.socketFd ≠ -1
  rspReach : h.rspReach = false
  stateType : h.stateType = .receiveStart
  readCurLen : h.readCurLen = 0
  early : h.receiveSize < min httpRxRspLen r.body.length
  pBody : ∃ m, h.pBody = some m ∧ m.slice 0 h.receiveSize = r.body.take h.receiveSize
  rest : rest <+: r.body.drop h.receiveSize

/-- A part of the body is in `pBody`, and the first bytes of that, `img`, are in the file. -/
structure Buffered (r : HttpResponse) (img : List UInt8) (h : HttpClient) (rest : List UInt8) :
    Prop where
  bodySize : h.bodySize = r.body.length
  receiveStatus : h.receiveStatus = .complete ∧ h.receiveSize = r.body.length ∨
    h.receiveStatus = .content ∧ h.receiveSize < r.body.length ∧ h.socketFd ≠ -1
  bodyBufLen : h.bodyBufLen = h.receiveSize
  stateType : h.stateType = .urlReady
  readCurLen : h.readCurLen ≤ h.bodyBufLen
  pBody : h.receiveSize ≠ 0 →
    ∃ m, h.pBody = some m ∧ m.slice 0 h.receiveSize = r.body.take h.receiveSize
  rest : rest <+: r.body.drop h.receiveSize
  img_eq : img = r.body.take h.readCurLen

/-- What `http_receiveRsp` ends in, where `total` bytes of the body arrive: the application is
told to read, if the status is 200 and enough of the body arrives, and is not told so
otherwise. -/
def Answered (r : HttpResponse) (total : Nat) (h : HttpClient) (answer : HttpAnswer)
    (rest : List UInt8) : Prop :=
  if r.status = httpResponseCodeOk ∧ min httpRxRspLen r.body.length ≤ total then
    httpGetCallback answer = some 122 ∧ Buffered r [] h rest ∧ h.receiveSize + rest.length = total
  else httpGetCallback answer = none

/-- Too little arrives: whatever error code there is, message 122 is not posted. -/
theorem Answered.fail {r : HttpResponse} {total : Nat} {h : HttpClient} {rest : List UInt8}
    {errcode : Nat} {code : Int} (hlt : total < min httpRxRspLen r.body.length)
    (herr : errcode ≠ 0) : Answered r total h (.rspCb errcode code 0) rest := by
  rw [Answered, if_neg (by omega)]
  exact if_neg (by simp [herr])

/-- The answer is given, once the body is complete or 2048 bytes of it are there. -/
theorem Answered.ready {r : HttpResponse} {total : Nat} {h : HttpClient} {rest : List UInt8}
    (htotal : h.receiveSize + rest.length = total) (hbody : h.bodySize = r.body.length)
    (hcode : h.rspcode = r.status)
    (hstatus : r.status = httpResponseCodeOk ∨ r.status = httpResponseCodePartialContent)
    (hcur : h.readCurLen = 0)
    (hdone : h.receiveStatus = .complete ∧ h.receiveSize = r.body.length ∨
      h.receiveStatus = .content ∧ h.receiveSize < r.body.length ∧ h.socketFd ≠ -1)
    (henough : min httpRxRspLen r.body.length ≤ h.receiveSize)
    (hm : h.receiveSize ≠ 0 →
      ∃ m, h.pBody = some m ∧ m.slice 0 h.receiveSize = r.body.take h.receiveSize)
    (hrest : rest <+: r.body.drop h.receiveSize) :
    Answered r total (rspAnswer h).1 (rspAnswer h).2 rest := by
  have hcode' : ({ h with httpErrCode := 0, bodyBufLen := h.receiveSize, rspReach := false } :
      HttpClient).rspcode ∉ ([301, 308, 300, 302, 303, 307] : List Int) := by
    simp only [hcode]
    rcases hstatus with hs | hs <;> rw [hs] <;> decide
  have hanswer : rspAnswer h = httpResultRspHandler
      { h with httpErrCode := 0, bodyBufLen := h.receiveSize, rspReach := false } :=
    if_neg hcode'
  rw [hanswer, httpResultRspHandler_eq, Answered]
  split
  · next hok =>
    refine ⟨if_pos ⟨rfl, hcode.trans hok.1⟩, ⟨hbody, ?_, rfl, rfl, ?_, hm, hrest, ?_⟩, htotal⟩
    · rcases hdone with hc | ⟨hst, hlt, hfd⟩
      · exact .inl hc
      · exact .inr ⟨hst, hlt, by simpa [hst] using hfd⟩
    · simp [hcur]
    · simp [hcur]
  · next hno =>
    refine if_neg fun hpost => hno ⟨?_, by omega⟩
    rw [← hcode]
    exact hpost.2

/-- The next piece of the body: it is stored, and either that is enough to answer, or the
client goes on receiving. -/
theorem Receiving.append {r : HttpResponse} {h : HttpClient} {bs rest : List UInt8}
    (hr : Receiving r h (bs ++ rest)) (hne : bs ≠ []) :
    ∃ h', httpAppendRsp h bs bs.length = (true, h') ∧
      h'.receiveSize = h.receiveSize + bs.length ∧
      (h'.rspReady = true →
        Answered r (h'.receiveSize + rest.length) (rspAnswer h').1 (rspAnswer h').2 rest) ∧
      (h'.rspReady = false → Receiving r h' rest) := by
  obtain ⟨m, hm, hslice⟩ := hr.pBody
  have hlt := hr.early
  have hlen := length_le_of_prefix_drop hr.rest
  rw [List.length_append] at hlen
  have hfit : h.receiveSize + bs.length ≤ h.bodySize := by
    rw [hr.bodySize]
    omega
  have hnew : (m.memcpy h.receiveSize (Mem.ofList bs) bs.length).slice 0
      (h.receiveSize + bs.length) = r.body.take (h.receiveSize + bs.length) := by
    rw [Mem.slice_memcpy_end, Mem.slice_ofList, hslice, take_add_of_next hr.rest]
  have happend : httpAppendRsp h bs bs.length
      = (true, { h with
          pBody := some (m.memcpy h.receiveSize (Mem.ofList bs) bs.length)
          receiveSize := h.receiveSize + bs.length
          receiveStatus := if h.receiveSize + bs.length = h.bodySize then .complete
            else .content }) := by
    simp only [httpAppendRsp, hr.receiveStatus]
    rw [httpContentAppend_of_fits hne hfit (by rw [hr.bodySize]; exact r.fits),
      store_pBody (by simp [hr.stateType]) hm]
    simp only [hr.receiveStatus]
  refine ⟨_, happend, rfl, fun hready => ?_, fun hready => ?_⟩
  · refine Answered.ready rfl hr.bodySize hr.rspcode hr.status hr.readCurLen ?_ ?_
      (fun _ => ⟨_, rfl, hnew⟩) (drop_add_of_next hr.rest)
    · by_cases heq : h.receiveSize + bs.length = h.bodySize
      · exact .inl ⟨if_pos heq, heq.trans hr.bodySize⟩
      · refine .inr ⟨if_neg heq, ?_, hr.socketFd⟩
        have := hr.bodySize
        simp only
        omega
    · by_cases heq : h.receiveSize + bs.length = h.bodySize
      · simp only [heq, hr.bodySize]
        exact Nat.min_le_right _ _
      · simp only [rspReady, if_neg heq] at hready ⊢
        simp at hready
        omega
  · by_cases heq : h.receiveSize + bs.length = h.bodySize
    · simp [rspReady, heq] at hready
    · refine ⟨if_neg heq, hr.bodySize, hr.rspcode, hr.status, hr.socketFd, hr.rspReach,
        hr.stateType, hr.readCurLen, ?_, ⟨_, rfl, hnew⟩, drop_add_of_next hr.rest⟩
      simp only [rspReady, if_neg heq] at hready
      simp at hready
      have := hr.bodySize
      simp only
      omega

/-- The rest of the response, once the header has been read. -/
theorem Receiving.receive {r : HttpResponse} (temp : List UInt8) :
    ∀ (fuel : Nat) (h : HttpClient) (k : Sock), Receiving r h k.bytes → k.bytes.length < fuel →
      ∃ h' answer k', httpReceiveRsp fuel temp h k = some ((h', answer), k') ∧
        Answered r (h.receiveSize + k.bytes.length) h' answer k'.bytes
  | 0, _, _, _, hfuel => absurd hfuel (by omega)
  | fuel + 1, h, k, hr, hfuel => by
    simp only [httpReceiveRsp, if_neg hr.socketFd, hr.rspReach, Bool.false_eq_true, if_false]
    cases hrecv : k.recv httpRxBufDefaultSize with
    | none =>
      have hnil := Sock.bytes_of_recv_none hrecv
      have hlt : h.receiveSize + k.bytes.length < min httpRxRspLen r.body.length := by
        rw [hnil]
        exact hr.early
      refine ⟨_, _, _, rfl, Answered.fail hlt ?_⟩
      cases k.ending <;> decide
    | some p =>
      obtain ⟨bs, k₁⟩ := p
      obtain ⟨hne, -, hbytes⟩ := Sock.bytes_of_recv_some (by decide) hrecv
      have hr' := hr
      rw [hbytes] at hr'
      obtain ⟨h', happend, hsize, hready, hgo⟩ := hr'.append hne
      have htotal : h.receiveSize + k.bytes.length = h'.receiveSize + k₁.bytes.length := by
        rw [hbytes, List.length_append, hsize]
        omega
      simp only [hr.receiveStatus, reduceCtorEq, if_false, happend, Bool.not_true,
        Bool.false_eq_true]
      rw [htotal]
      cases hrdy : h'.rspReady with
      | true => exact ⟨_, _, _, if_pos rfl, hready hrdy⟩
      | false =>
        simp only [Bool.false_eq_true, if_false]
        refine Receiving.receive temp fuel h' k₁ (hgo hrdy) ?_
        have hpos := List.length_pos_iff.mpr hne
        rw [hbytes, List.length_append] at hfuel
        omega

/-- Nothing but a part of the header has been received. -/
structure Waiting (h : HttpClient) : Prop where
  receiveStatus : h.receiveStatus = .header
  socketFd : h.socketFd ≠ -1
  rspReach : h.rspReach = false
  stateType : h.stateType = .receiveStart
  readCurLen : h.readCurLen = 0
  receiveSize : h.receiveSize = 0

/-- The header is there, with the first bytes `t` of the body behind it. -/
theorem Waiting.decode {r : HttpResponse} {h : HttpClient} {t rest : List UInt8}
    (hw : Waiting h) (hcode : h.rspcode = r.status)
    (hstatus : r.status = httpResponseCodeOk ∨ r.status = httpResponseCodePartialContent)
    (hbody : t ++ rest <+: r.body) :
    ∃ h', httpDecodeRspHeader h (r.header ++ t) = (true, h') ∧
      (h'.rspReady = true →
        Answered r (t.length + rest.length) (rspAnswer h').1 (rspAnswer h').2 rest) ∧
      (h'.rspReady = false → Receiving r h' rest ∧ h'.receiveSize = t.length) := by
  have hne : r.header ++ t ≠ [] := by
    have h4 := r.four_le_length
    rw [← List.length_pos_iff, List.length_append]
    omega
  have hsize : r.header.length - 4 + headerEnd.length = r.header.length := by
    have h4 := r.four_le_length
    have : headerEnd.length = 4 := rfl
    omega
  simp only [httpDecodeRspHeader, if_neg hne, r.httpDecodeLength_header, r.strstr_end,
    Option.getD_some, hsize, true_and, reduceCtorEq, if_false]
  by_cases h0 : r.body.length = 0
  · have hnil : t ++ rest = [] := List.eq_nil_of_length_eq_zero (by have := hbody.length_le; omega)
    obtain ⟨rfl, rfl⟩ := List.append_eq_nil_iff.mp hnil
    refine ⟨_, if_pos h0, fun _ => ?_, fun hready => ?_⟩
    · exact Answered.ready (by simpa using hw.receiveSize) rfl hcode hstatus hw.readCurLen
        (.inl ⟨rfl, hw.receiveSize.trans h0.symm⟩) (by simp [h0])
        (fun hn => absurd hw.receiveSize hn) List.nil_prefix
    · simp [rspReady] at hready
  · rw [if_neg h0, if_pos (by simp)]
    -- the header is read, and `pBody` is there for what comes behind it
    have hr : Receiving r { h with
        bodySize := r.body.length, receiveStatus := .content, isContentLen := true
        pBody := some fun _ => 0 } (t ++ rest) := by
      refine ⟨rfl, rfl, hcode, hstatus, hw.socketFd, hw.rspReach, hw.stateType, hw.readCurLen, ?_,
        ⟨_, rfl, ?_⟩, ?_⟩
      · simp only [hw.receiveSize, httpRxRspLen]
        omega
      · simp [hw.receiveSize, Mem.slice]
      · simpa [hw.receiveSize] using hbody
    by_cases ht : t = []
    · subst ht
      refine ⟨_, if_neg (by simp), fun hready => ?_, fun _ => ⟨hr, hw.receiveSize⟩⟩
      simp [rspReady, hw.receiveSize, httpRxRspLen] at hready
    · obtain ⟨h', happend, hsz, hready, hgo⟩ := hr.append ht
      have hpos := List.length_pos_iff.mpr ht
      rw [if_pos (by simp only [List.length_append]; omega)]
      simp only [List.drop_left, List.length_append, Nat.add_sub_cancel_left, happend]
      have hsz' : h'.receiveSize = t.length := by
        rw [hsz]
        simp [hw.receiveSize]
      refine ⟨h', rfl, fun hrdy => ?_, fun hrdy => ⟨hgo hrdy, hsz'⟩⟩
      rw [← hsz']
      exact hready hrdy

/-- A response with another status is answered at once, and message 122 is not posted. -/
theorem Answered.otherStatus {r : HttpResponse} {total : Nat} {h : HttpClient}
    {rest : List UInt8} (hcode : h.rspcode = r.status) (hstatus : r.status ≠ httpResponseCodeOk) :
    Answered r total h.httpRspStatus.1 h.httpRspStatus.2 rest := by
  rw [Answered, if_neg (fun hok => hstatus hok.1), httpRspStatus]
  split
  · rfl
  · rw [httpResultRspHandler_eq]
    exact if_neg fun hpost => hstatus (hcode.symm.trans hpost.2)

/-- The whole of `http_receiveRsp`: without a complete header message 122 is not posted, and
with it the body decides. -/
theorem Waiting.receive {r : HttpResponse} :
    ∀ (fuel : Nat) (temp : List UInt8) (h : HttpClient) (k : Sock), Waiting h →
      temp ++ k.bytes <+: r.bytes → temp.length < r.header.length → k.bytes.length < fuel →
      ∃ h' answer k', httpReceiveRsp fuel temp h k = some ((h', answer), k') ∧
        (temp.length + k.bytes.length < r.header.length ∧ httpGetCallback answer = none ∨
          ∃ total, temp.length + k.bytes.length = r.header.length + total ∧
            Answered r total h' answer k'.bytes)
  | 0, _, _, _, _, _, _, hfuel => absurd hfuel (by omega)
  | fuel + 1, temp, h, k, hw, hpre, hlen, hfuel => by
    rw [httpReceiveRsp, if_neg hw.socketFd, if_neg (by simp [hw.rspReach])]
    cases hrecv : k.recv httpRxBufDefaultSize with
    | none =>
      have hnil := Sock.bytes_of_recv_none hrecv
      refine ⟨_, _, _, rfl, .inl ⟨by simpa [hnil] using hlen, ?_⟩⟩
      cases k.ending <;> rfl
    | some p =>
      obtain ⟨bs, k₁⟩ := p
      obtain ⟨hne, -, hbytes⟩ := Sock.bytes_of_recv_some (by decide) hrecv
      have hpos := List.length_pos_iff.mpr hne
      rw [hbytes, List.length_append] at hfuel
      rw [hbytes, ← List.append_assoc] at hpre
      have htotal : temp.length + k.bytes.length = (temp ++ bs).length + k₁.bytes.length := by
        rw [hbytes, List.length_append, List.length_append, Nat.add_assoc]
      rw [htotal]
      have htemp : temp ++ bs <+: r.header ++ r.body := (List.prefix_append _ _).trans hpre
      simp only [if_pos hw.receiveStatus]
      by_cases hshort : (temp ++ bs).length < r.header.length
      · -- still no empty line
        have hhead : temp ++ bs <+: r.header :=
          List.prefix_of_prefix_length_le htemp (List.prefix_append _ _) (by omega)
        simp only [r.headerEnd_none hhead hshort, Option.isNone_none, if_true]
        exact Waiting.receive fuel (temp ++ bs) h k₁ hw hpre hshort (by omega)
      · obtain ⟨t, ht⟩ : r.header <+: temp ++ bs :=
          List.prefix_of_prefix_length_le (List.prefix_append _ _) htemp (by omega)
        have hbody : t ++ k₁.bytes <+: r.body := by
          rw [← ht, List.append_assoc, HttpResponse.bytes] at hpre
          exact (List.prefix_append_right_inj _).mp hpre
        rw [← ht, r.strstr_end, r.httpParseRspCode_header]
        have hcode : (HttpClient.httpParseRspCode r.header).bmod 65536 = r.status := rfl
        have hlen' : (r.header ++ t).length + k₁.bytes.length
            = r.header.length + (t.length + k₁.bytes.length) := by
          rw [List.length_append, Nat.add_assoc]
        simp only [Option.isNone_some, Bool.false_eq_true, if_false, hcode]
        by_cases hstatus : r.status = httpResponseCodeOk ∨ r.status = httpResponseCodePartialContent
        · rw [if_pos hstatus]
          have hw' : Waiting { h with rspcode := r.status } :=
            ⟨hw.receiveStatus, hw.socketFd, hw.rspReach, hw.stateType, hw.readCurLen,
              hw.receiveSize⟩
          obtain ⟨h', hdecode, hready, hgo⟩ := hw'.decode rfl hstatus hbody
          simp only [hdecode, Bool.not_true, Bool.false_eq_true, if_false]
          cases hrdy : h'.rspReady with
          | true => exact ⟨_, _, _, if_pos rfl, .inr ⟨_, hlen', hready hrdy⟩⟩
          | false =>
            obtain ⟨hr, hsize⟩ := hgo hrdy
            obtain ⟨h'', answer, k', hrun, hanswer⟩ :=
              hr.receive (r.header ++ t) fuel h' k₁ (by omega)
            rw [hsize] at hanswer
            simp only [Bool.false_eq_true, if_false]
            exact ⟨h'', answer, k', hrun, .inr ⟨_, hlen', hanswer⟩⟩
        · rw [if_neg hstatus]
          exact ⟨_, _, _, rfl, .inr ⟨_, hlen', Answered.otherStatus rfl fun h => hstatus (.inl h)⟩⟩

/-! ## While the body is read from the socket -/

/-- `http_readreceiveRsp` was called when `start` bytes of the body had been received, and has
put the next `cnt` of at most `dataLen` bytes into `pReadData`. -/
structure Filling (r : HttpResponse) (dataLen start cnt : Nat) (h : HttpClient)
    (rest : List UInt8) : Prop where
  receiveStatus : h.receiveStatus = .content
  bodySize : h.bodySize = r.body.length
  socketFd : h.socketFd ≠ -1
  stateType : h.stateType = .read
  actionType : h.actionType = .read
  pBody : h.pBody = none
  bodyBufLen : h.bodyBufLen = 0
  gReadLen : h.gReadLen = cnt
  cnt_le : cnt ≤ dataLen
  receiveSize : h.receiveSize = start + cnt
  more : start + cnt < r.body.length
  pReadData : h.pReadData.slice 0 cnt = (r.body.drop start).take cnt
  rest : rest <+: r.body.drop (start + cnt)

/-- What `http_readreceiveRsp` ends in, where `total` bytes arrive from `start` on. -/
inductive ReadOutcome (r : HttpResponse) (dataLen start total : Nat) (o : ReadRsp) : Prop where
  /-- It has read what it was asked for, and the body goes on. -/
  | more (ret : o.ret = 1) (size : o.realSize = dataLen)
      (filled : Filling r dataLen start dataLen o.http o.sock.bytes)
      (kept : dataLen + o.sock.bytes.length = total)
  /-- It has read the last byte of the body. -/
  | complete (ret : o.ret = 0) (size : start + o.realSize = r.body.length)
      (le : o.realSize ≤ dataLen)
      (data : o.http.pReadData.slice 0 o.realSize = r.body.drop start)
      (all : total = o.realSize)
  /-- The peer has closed, which counts as the end, or there was an error. -/
  | short (ret : o.ret = 0 ∧ o.realSize = 0 ∨ o.ret ≠ 0 ∧ o.ret ≠ 1)
      (missing : start + total < r.body.length)

/-- The next piece of the body goes into `pReadData`. -/
theorem Filling.append {r : HttpResponse} {dataLen start cnt : Nat} {h : HttpClient}
    {bs rest : List UInt8} (hf : Filling r dataLen start cnt h (bs ++ rest)) (hne : bs ≠ [])
    (hle : cnt + bs.length ≤ dataLen) :
    ∃ h', httpAppendRsp h bs bs.length = (true, h') ∧ h'.stateType = .read ∧
      (h'.receiveStatus = .complete → h'.gReadLen = cnt + bs.length ∧
        start + (cnt + bs.length) = r.body.length ∧ rest = [] ∧
        h'.pReadData.slice 0 (cnt + bs.length) = r.body.drop start) ∧
      (h'.receiveStatus ≠ .complete → Filling r dataLen start (cnt + bs.length) h' rest) := by
  have hlen := length_le_of_prefix_drop hf.rest
  rw [List.length_append] at hlen
  have hmore := hf.more
  have hfit : h.receiveSize + bs.length ≤ h.bodySize := by
    rw [hf.receiveSize, hf.bodySize]
    omega
  have hsize := r.fits
  have hmod : (cnt + bs.length) % 4294967296 = cnt + bs.length := Nat.mod_eq_of_lt (by omega)
  have hnew : (h.pReadData.memcpy cnt (Mem.ofList bs) bs.length).slice 0 (cnt + bs.length)
      = (r.body.drop start).take (cnt + bs.length) := by
    have hrest := hf.rest
    rw [← List.drop_drop] at hrest
    rw [Mem.slice_memcpy_end, Mem.slice_ofList, hf.pReadData, take_add_of_next hrest]
  have happend : httpAppendRsp h bs bs.length
      = (true, { h with
          pReadData := h.pReadData.memcpy cnt (Mem.ofList bs) bs.length
          gReadLen := cnt + bs.length
          receiveSize := h.receiveSize + bs.length
          receiveStatus := if h.receiveSize + bs.length = h.bodySize then .complete
            else .content }) := by
    simp only [httpAppendRsp, hf.receiveStatus]
    rw [httpContentAppend_of_fits hne hfit (by rw [hf.bodySize]; exact hsize),
      store_pReadData hf.stateType hf.actionType]
    simp only [hf.receiveStatus, hf.gReadLen, hmod]
  refine ⟨_, happend, hf.stateType, fun hdone => ?_, fun hgo => ?_⟩
  · by_cases heq : h.receiveSize + bs.length = h.bodySize
    · rw [hf.receiveSize, hf.bodySize] at heq
      refine ⟨rfl, by omega, List.eq_nil_of_length_eq_zero (by omega), ?_⟩
      simp only [hnew]
      exact List.take_of_length_le (by simp only [List.length_drop]; omega)
    · simp [heq] at hdone
  · by_cases heq : h.receiveSize + bs.length = h.bodySize
    · simp [heq] at hgo
    · have heq' := heq
      rw [hf.receiveSize, hf.bodySize] at heq'
      have hrest := drop_add_of_next hf.rest
      rw [Nat.add_assoc] at hrest
      exact ⟨if_neg heq, hf.bodySize, hf.socketFd, hf.stateType, hf.actionType, hf.pBody,
        hf.bodyBufLen, rfl, hle, by simp only [hf.receiveSize, Nat.add_assoc], by omega, hnew, hrest⟩

/-- The end behind an error. -/
theorem ReadOutcome.error {r : HttpResponse} {dataLen start total : Nat} {h : HttpClient}
    {k : Sock} {errcode : Nat} (herr : errcode ≠ 0 ∧ errcode ≠ 1)
    (hmiss : start + total < r.body.length) :
    ReadOutcome r dataLen start total (readreceiveEnd h k errcode) := by
  rw [readreceiveEnd, if_pos herr.1]
  exact .short (.inr herr) hmiss

/-- The loop of `http_readreceiveRsp`. -/
theorem Filling.read {r : HttpResponse} {dataLen start : Nat} :
    ∀ (fuel cnt : Nat) (h : HttpClient) (k : Sock), Filling r dataLen start cnt h k.bytes →
      dataLen - cnt < fuel →
      ∃ o, readreceiveLoop dataLen fuel cnt h k = some o ∧
        ReadOutcome r dataLen start (cnt + k.bytes.length) o
  | 0, _, _, _, _, hfuel => absurd hfuel (by omega)
  | fuel + 1, cnt, h, k, hf, hfuel => by
    rw [readreceiveLoop]
    by_cases hend : dataLen ≤ cnt
    · have hcnt : cnt = dataLen := Nat.le_antisymm hf.cnt_le hend
      subst hcnt
      refine ⟨_, if_pos hend, ?_⟩
      exact .more rfl hf.gReadLen hf rfl
    · rw [if_neg hend, if_neg hf.socketFd]
      have hmore := hf.more
      generalize hsz : (if httpRxBufDefaultSize < dataLen - cnt then httpRxBufDefaultSize
        else dataLen - cnt) = readSize
      have hsize : 0 < readSize ∧ readSize ≤ dataLen - cnt := by
        have h1460 : httpRxBufDefaultSize = 1460 := rfl
        split at hsz <;> omega
      cases hrecv : k.recv readSize with
      | none =>
        have hmiss : start + (cnt + k.bytes.length) < r.body.length := by
          rw [Sock.bytes_of_recv_none hrecv]
          simpa using hmore
        cases k.ending with
        | closed =>
          simp only [hrecv, hf.stateType, if_true]
          exact ⟨_, rfl, .short (.inl ⟨rfl, rfl⟩) hmiss⟩
        | recvError =>
          simp only [hrecv]
          exact ⟨_, rfl, .error (by decide) hmiss⟩
        | selectError =>
          simp only [hrecv]
          exact ⟨_, rfl, .error (by decide) hmiss⟩
        | timeout =>
          simp only [hrecv]
          exact ⟨_, rfl, .error (by decide) hmiss⟩
      | some p =>
        obtain ⟨bs, k₁⟩ := p
        obtain ⟨hne, hlen, hbytes⟩ := Sock.bytes_of_recv_some hsize.1 hrecv
        have hf' := hf
        rw [hbytes] at hf'
        obtain ⟨h', happend, hst, hdone, hgo⟩ := hf'.append hne (by omega)
        have htotal : cnt + k.bytes.length = cnt + bs.length + k₁.bytes.length := by
          rw [hbytes, List.length_append, Nat.add_assoc]
        simp only [hrecv, happend, hst, true_and, Bool.not_true, Bool.false_eq_true, if_false]
        rw [htotal]
        by_cases hc : h'.receiveStatus = .complete
        · obtain ⟨hread, hall, hnil, hdata⟩ := hdone hc
          refine ⟨_, if_pos hc, .complete rfl ?_ ?_ ?_ ?_⟩
          · rw [hread]
            exact hall
          · simp only [hread]
            omega
          · simpa only [hread, httpResetStatus_pReadData] using hdata
          · simp [hnil, hread]
        · rw [if_neg hc]
          have hpos := List.length_pos_iff.mpr hne
          exact Filling.read fuel (cnt + bs.length) h' k₁ (hgo hc) (by omega)

/-! ## While the application reads the body -/

/-- `pBody` is read to its end, and what has been received is in the file, `img`. -/
structure Reading (r : HttpResponse) (img : List UInt8) (h : HttpClient) (rest : List UInt8) :
    Prop where
  receiveStatus : h.receiveStatus = .content
  bodySize : h.bodySize = r.body.length
  socketFd : h.socketFd ≠ -1
  stateType : h.stateType = .read
  pBody : h.pBody = none
  bodyBufLen : h.bodyBufLen = 0
  more : h.receiveSize < r.body.length
  rest : rest <+: r.body.drop h.receiveSize
  img_eq : img = r.body.take h.receiveSize

/-- What a call of `http_readContentDataAndLen` ends in, where `total` bytes of the body have
been received or still arrive; `left` of them are not in the file yet. -/
inductive ContentOutcome (r : HttpResponse) (img : List UInt8) (total left : Nat)
    (o : ReadContent) : Prop where
  /-- It has read the next bytes, and the body goes on. -/
  | more (ret : o.ret = 0) (readEnd : o.readEnd = false)
      (reads : Buffered r (img ++ o.pData.slice 0 o.actualDataLen) o.http o.sock.bytes ∨
        Reading r (img ++ o.pData.slice 0 o.actualDataLen) o.http o.sock.bytes)
      (kept : o.http.receiveSize + o.sock.bytes.length = total)
      (less : o.http.bodyBufLen - o.http.readCurLen + o.sock.bytes.length < left)
  /-- It has read the last byte of the body. -/
  | complete (ret : o.ret = 0) (readEnd : o.readEnd = true)
      (data : img ++ o.pData.slice 0 o.actualDataLen = r.body) (all : total = r.body.length)
  /-- It has failed, or taken the close of the peer for the end. -/
  | short (ret : o.ret ≠ 0 ∧ img.length < r.body.length ∨
        o.ret = 0 ∧ o.readEnd = true ∧
          (img ++ o.pData.slice 0 o.actualDataLen).length < r.body.length)
      (missing : total < r.body.length)

/-- The part of a call that reads from the socket, behind `readLen` bytes from `pBody`. -/
theorem ContentOutcome.ofRead {r : HttpResponse} {img : List UInt8} {pData : Mem}
    {dataLen readLen actualDataLen start total left : Nat} {readEnd : Bool} {o : ReadRsp}
    (ho : ReadOutcome r (dataLen - readLen) start total o)
    (himg : img ++ pData.slice 0 readLen = r.body.take start) (hstart : start < r.body.length)
    (hle : readLen ≤ dataLen) (hpos : 0 < dataLen) (hleft : left = readLen + total) :
    ContentOutcome r img (start + total) left
      (readContentEnd readLen pData actualDataLen readEnd o) := by
  have hslice : ∀ (src : Mem) (n : Nat), img ++ (pData.memcpy readLen src n).slice 0 (n + readLen)
      = r.body.take start ++ src.slice 0 n := by
    intro src n
    rw [Nat.add_comm, Mem.slice_memcpy_end, ← List.append_assoc, himg]
  cases ho with
  | more hret hsize hf hkept =>
    rw [readContentEnd, if_neg (by omega), if_pos hret]
    have hlt := hf.more
    have himg' : r.body.take start ++ o.http.pReadData.slice 0 o.realSize
        = r.body.take o.http.receiveSize := by
      rw [hsize, hf.pReadData, hf.receiveSize, ← List.take_add]
    refine .more rfl rfl (.inr ⟨hf.receiveStatus, hf.bodySize, hf.socketFd, hf.stateType,
      hf.pBody, hf.bodyBufLen, by rw [hf.receiveSize]; exact hlt, ?_, ?_⟩) ?_ ?_
    · simp only [hf.receiveSize]
      exact hf.rest
    · simp only [hslice]
      exact himg'
    · simp only [hf.receiveSize]
      omega
    · simp only [hf.bodyBufLen]
      omega
  | complete hret hsize hle' hdata hall =>
    rw [readContentEnd, if_pos hret]
    refine .complete rfl rfl ?_ ?_
    · simp only [hslice, hdata, List.take_append_drop]
    · omega
  | short hret hmiss =>
    refine .short ?_ hmiss
    have hlen : (img ++ pData.slice 0 readLen).length = start := by
      rw [himg, List.length_take]
      omega
    rw [List.length_append] at hlen
    rcases hret with ⟨hret, hzero⟩ | ⟨h0, h1⟩
    · rw [readContentEnd, if_pos hret]
      refine .inr ⟨rfl, rfl, ?_⟩
      simp only [hslice, hzero, List.length_append, List.length_take, Mem.length_slice]
      omega
    · rw [readContentEnd, if_neg h0, if_neg h1]
      exact .inl ⟨h0, by omega⟩

theorem Buffered.bufferedLen_eq {r : HttpResponse} {img : List UInt8} {h : HttpClient}
    {rest : List UInt8} (hb : Buffered r img h rest) (dataLen : Nat) :
    h.bufferedLen dataLen = min dataLen (h.bodyBufLen - h.readCurLen) := by
  simp only [bufferedLen, sub32_of_le hb.readCurLen]
  by_cases hpos : 0 < h.bodyBufLen - h.readCurLen
  · obtain ⟨m, hm, -⟩ := hb.pBody (by rw [← hb.bodyBufLen]; omega)
    rw [if_pos ⟨by simp [hm], hpos⟩]
    split <;> omega
  · rw [if_neg fun hc => hpos hc.2]
    omega

/-- The bytes that a call takes from `pBody` are the next ones of the body. -/
theorem Buffered.img_append {r : HttpResponse} {img : List UInt8} {h : HttpClient}
    {rest : List UInt8} (hb : Buffered r img h rest) {n : Nat}
    (hle : h.readCurLen + n ≤ h.bodyBufLen) :
    img ++ (Mem.memcpy (fun _ => 0) 0 ((h.pBody.getD fun _ => 0).ptr h.readCurLen) n).slice 0 n
      = r.body.take (h.readCurLen + n) := by
  have hptr : ∀ m : Mem, (m.ptr h.readCurLen).slice 0 n = m.slice h.readCurLen n := by
    intro m
    exact Mem.slice_congr fun j _ => by simp
  rw [Mem.slice_memcpy, hptr, hb.img_eq, List.take_add]
  congr 1
  by_cases h0 : h.receiveSize = 0
  · have hbuf := hb.bodyBufLen
    have h0' : n = 0 := by omega
    subst h0'
    simp [Mem.slice]
  · obtain ⟨m, hm, hslice⟩ := hb.pBody h0
    have hle' := hle
    rw [hb.bodyBufLen] at hle'
    rw [hm, Option.getD_some, ← Mem.take_drop_slice m hle', hslice, List.drop_take, List.take_take,
      Nat.min_eq_left (by omega)]

/-- A call while there is something left in `pBody`. -/
theorem Buffered.content {r : HttpResponse} {img : List UInt8} {h : HttpClient} {k : Sock}
    (hb : Buffered r img h k.bytes) {dataLen : Nat} (hpos : 0 < dataLen) (actualDataLen : Nat)
    (readEnd : Bool) :
    ∃ o, httpReadContentDataAndLen dataLen actualDataLen readEnd h k = some o ∧
      ContentOutcome r img (h.receiveSize + k.bytes.length)
        (h.bodyBufLen - h.readCurLen + k.bytes.length) o := by
  have hcur := hb.readCurLen
  have hbuf := hb.bodyBufLen
  have hlen := length_le_of_prefix_drop hb.rest
  have hfits := r.fits
  have hreceived : h.receiveSize ≤ r.body.length := by
    rcases hb.receiveStatus with ⟨-, hs⟩ | ⟨-, hs, -⟩ <;> omega
  have hreadLen := hb.bufferedLen_eq dataLen
  have hread : ({ h with isRunning := true, httpErrCode := 0, actionType := .read } :
      HttpClient).bufferedLen dataLen = h.bufferedLen dataLen := rfl
  have hmod : (h.readCurLen + h.bufferedLen dataLen) % 4294967296
      = h.readCurLen + h.bufferedLen dataLen := Nat.mod_eq_of_lt (by omega)
  have himg := hb.img_append (n := h.bufferedLen dataLen) (by omega)
  simp only [httpReadContentDataAndLen, if_neg (Nat.ne_of_gt hpos), hread, hmod]
  generalize h.bufferedLen dataLen = readLen at hreadLen himg ⊢
  by_cases hmore : h.readCurLen + readLen < h.bodyBufLen
  · refine ⟨_, if_pos ⟨hmore, by simp [hb.stateType]⟩, .more rfl rfl (.inl ?_) rfl ?_⟩
    · exact ⟨hb.bodySize, hb.receiveStatus, hb.bodyBufLen, hb.stateType, Nat.le_of_lt hmore,
        hb.pBody, hb.rest, himg⟩
    · simp only
      omega
  · rw [if_neg fun hc => hmore hc.1]
    have hend : h.readCurLen + readLen = h.receiveSize := by omega
    rcases hb.receiveStatus with ⟨hst, hsize⟩ | ⟨hst, hlt, hfd⟩
    · refine ⟨_, if_pos hst, .complete rfl rfl ?_ (by omega)⟩
      simp only [himg, hend, hsize, List.take_length]
    · rw [if_neg (by simp [hst])]
      -- from here on the body comes from the socket
      have hf : Filling r (dataLen - readLen) h.receiveSize 0
          { h with
            isRunning := true, httpErrCode := 0, actionType := .read
            readCurLen := h.readCurLen + readLen, stateType := .read
            pBody := none, bodyBufLen := 0, pReadData := fun _ => 0, gReadLen := 0 } k.bytes :=
        ⟨hst, hb.bodySize, hfd, rfl, rfl, rfl, rfl, rfl, Nat.zero_le _, rfl, hlt, rfl, hb.rest⟩
      obtain ⟨o, ho, hout⟩ := hf.read (dataLen - readLen + 1) 0 _ k (by omega)
      rw [Nat.zero_add] at hout
      refine ⟨readContentEnd readLen _ actualDataLen readEnd o, ?_,
        .ofRead hout (himg.trans (by rw [hend])) hlt (by omega) hpos (by omega)⟩
      by_cases hp : h.pBody.isSome
      · simp only [hp, if_true, httpReadreceiveRsp]
        rw [ho]
        rfl
      · have hnone : h.pBody = none := by simpa using hp
        have h0 : h.receiveSize = 0 := by
          by_contra hne
          obtain ⟨m, hm, -⟩ := hb.pBody hne
          simp [hm] at hnone
        simp only [hnone, hbuf, h0, Option.isSome_none, Bool.false_eq_true, if_false,
          httpReadreceiveRsp]
        rw [h0] at ho
        rw [ho]
        rfl

/-- A call when everything that was received is in the file. -/
theorem Reading.content {r : HttpResponse} {img : List UInt8} {h : HttpClient} {k : Sock}
    (hr : Reading r img h k.bytes) {dataLen : Nat} (hpos : 0 < dataLen) (actualDataLen : Nat)
    (readEnd : Bool) :
    ∃ o, httpReadContentDataAndLen dataLen actualDataLen readEnd h k = some o ∧
      ContentOutcome r img (h.receiveSize + k.bytes.length)
        (h.bodyBufLen - h.readCurLen + k.bytes.length) o := by
  have hread : ({ h with isRunning := true, httpErrCode := 0, actionType := .read } :
      HttpClient).bufferedLen dataLen = 0 :=
    if_neg (by simp [hr.pBody])
  have hf : Filling r dataLen h.receiveSize 0
      { h with
        isRunning := true, httpErrCode := 0, actionType := .read
        readCurLen := (h.readCurLen + 0) % 4294967296, stateType := .read
        pReadData := fun _ => 0, gReadLen := 0 } k.bytes :=
    ⟨hr.receiveStatus, hr.bodySize, hr.socketFd, rfl, rfl, hr.pBody, hr.bodyBufLen, rfl,
      Nat.zero_le _, rfl, hr.more, rfl, hr.rest⟩
  obtain ⟨o, ho, hout⟩ := hf.read (dataLen + 1) 0 _ k (by omega)
  rw [Nat.zero_add] at hout
  rw [← Nat.sub_zero dataLen] at hout
  refine ⟨readContentEnd 0 (Mem.memcpy (fun _ => 0) 0 ((h.pBody.getD fun _ => 0).ptr h.readCurLen) 0)
    actualDataLen readEnd o, ?_, .ofRead hout ?_ hr.more (Nat.zero_le _) hpos ?_⟩
  · simp only [httpReadContentDataAndLen, if_neg (Nat.ne_of_gt hpos), hread]
    rw [if_neg fun hc => hc.2 hr.stateType, if_neg (by simp [hr.receiveStatus])]
    simp only [hr.pBody, Option.isSome_none, Bool.false_eq_true, if_false, httpReadreceiveRsp,
      Nat.sub_zero]
    rw [hr.pBody] at ho
    rw [ho]
    rfl
  · rw [hr.img_eq]
    simp [Mem.slice]
  · simp [hr.bodyBufLen]

/-! ## The handler -/

/-- The loop of message 122: what it leaves in the file is the body, exactly if all of it
arrives. -/
theorem writeImage_eq {r : HttpResponse} :
    ∀ (fuel : Nat) (img : List UInt8) (bytesRead : Nat) (h : HttpClient) (k : Sock),
      Buffered r img h k.bytes ∨ Reading r img h k.bytes →
      h.bodyBufLen - h.readCurLen + k.bytes.length < fuel →
      ∃ img', writeImage fuel img bytesRead h k = some img' ∧
        (img' = r.body ↔ h.receiveSize + k.bytes.length = r.body.length)
  | 0, _, _, _, _, _, hfuel => absurd hfuel (by omega)
  | fuel + 1, img, bytesRead, h, k, hreads, hfuel => by
    obtain ⟨o, ho, hout⟩ : ∃ o, httpReadContentDataAndLen 1024 bytesRead false h k = some o ∧
        ContentOutcome r img (h.receiveSize + k.bytes.length)
          (h.bodyBufLen - h.readCurLen + k.bytes.length) o := by
      rcases hreads with hb | hr
      · exact hb.content (by decide) bytesRead false
      · exact hr.content (by decide) bytesRead false
    rw [writeImage, ho, Option.bind_some]
    cases hout with
    | more hret hend hnext hkept hless =>
      simp only [hret, hend, ne_eq, not_true_eq_false, if_false, Bool.false_eq_true]
      rw [← hkept]
      exact writeImage_eq fuel _ _ o.http o.sock hnext (by omega)
    | complete hret hend hdata hall =>
      simp only [hret, hend, ne_eq, not_true_eq_false, if_false, if_true]
      exact ⟨_, rfl, iff_of_true hdata hall⟩
    | short hret hmiss =>
      rcases hret with ⟨hret, hlen⟩ | ⟨hret, hend, hlen⟩
      · refine ⟨_, if_pos hret, iff_of_false ?_ (by omega)⟩
        rintro rfl
        omega
      · simp only [hret, hend, ne_eq, not_true_eq_false, if_false, if_true]
        refine ⟨_, rfl, iff_of_false (fun heq => ?_) (by omega)⟩
        rw [heq] at hlen
        omega

/-! ## The download -/

/-- The client before its first request. -/
def idleClient : HttpClient where
  socketFd := -1
  actionType := .none
  stateType := .urlReady
  rspcode := 0
  pBody := none
  bodySize := 0
  rspReach := false
  receiveSize := 0
  bodyBufLen := 0
  isContentLen := false
  receiveStatus := .header
  isRunning := false
  httpCurChunkLen := 0
  httpErrCode := 0
  readCurLen := 0
  pReadData := fun _ => 0
  gReadLen := 0
  gHttpChunkTail := { buf := fun _ => 0, cnt := 0 }

/-- `HTTP/1.1 200`, and a `Content-Length` with these digits. -/
def okHeader (digits : List UInt8) : List UInt8 :=
  http11 ++ [32, 50, 48, 48, 13, 10] ++
    (contentLengthName ++ ([32] ++ (digits ++ 13 :: [10, 13, 10])))

/-- An image of `n` bytes. -/
def image (n : Nat) : List UInt8 := List.replicate n 7

end IntercomSalve
