/-
# `ReceiveEnds` — how the receiver of a response ends

Whatever a response is and however it is cut, `http_receiveRsp` ends in one of two
ways (`received_of_receiveRsp`): it calls `rspCb` and leaves the client at rest,
with its socket or with none; or the response redirects, the client is where it was,
and a header is among what has been received.  The decoders in between do not touch
what this is about (`SameLink`).

It does end: every pass of its loop takes a byte at least (`receiveRsp_ends`).
-/
import IntercomSalve.HttpClient

namespace IntercomSalve

open CString

namespace HttpClient

/-! ## What the receiver leaves alone -/

/-- The socket, the state, the action, the status and what has been read are the same, a buffer
for the body stays, and what is behind the header stays behind it. -/
structure SameLink (h h' : HttpClient) : Prop where
  socketFd : h'.socketFd = h.socketFd
  stateType : h'.stateType = h.stateType
  actionType : h'.actionType = h.actionType
  rspcode : h'.rspcode = h.rspcode
  readCurLen : h'.readCurLen = h.readCurLen
  pBody : h.pBody.isSome → h'.pBody.isSome
  receiveStatus : h.receiveStatus ≠ .header → h'.receiveStatus ≠ .header

theorem SameLink.refl (h : HttpClient) : SameLink h h := ⟨rfl, rfl, rfl, rfl, rfl, id, id⟩

theorem SameLink.trans {h₁ h₂ h₃ : HttpClient} (h12 : SameLink h₁ h₂) (h23 : SameLink h₂ h₃) :
    SameLink h₁ h₃ :=
  ⟨h23.socketFd.trans h12.socketFd, h23.stateType.trans h12.stateType,
    h23.actionType.trans h12.actionType, h23.rspcode.trans h12.rspcode,
    h23.readCurLen.trans h12.readCurLen,
    fun hb => h23.pBody (h12.pBody hb), fun hr => h23.receiveStatus (h12.receiveStatus hr)⟩

theorem sameLink_store (h : HttpClient) (src : Mem) (n : Nat) : SameLink h (h.store src n) := by
  unfold store
  split
  · split <;> exact ⟨rfl, rfl, rfl, rfl, rfl, id, id⟩
  · exact ⟨rfl, rfl, rfl, rfl, rfl, fun hb => Option.isSome_map.trans hb, id⟩

/-- Nor does it matter what is counted besides. -/
theorem SameLink.storeAnd {h h' : HttpClient} (hh : SameLink h h') (src : Mem) (n r k : Nat) :
    SameLink h { h'.store src n with receiveSize := r, httpCurChunkLen := k } :=
  have hs := hh.trans (sameLink_store h' src n)
  ⟨hs.socketFd, hs.stateType, hs.actionType, hs.rspcode, hs.readCurLen, hs.pBody, hs.receiveStatus⟩

theorem SameLink.ite_snd {h : HttpClient} {α : Type} {c : Prop} [Decidable c] {a b : α × HttpClient}
    (ha : SameLink h a.2) (hb : SameLink h b.2) : SameLink h (if c then a else b).2 := by
  split
  · exact ha
  · exact hb

theorem sameLink_contentAppend (h : HttpClient) (input : List UInt8) (size : Nat) :
    SameLink h (httpContentAppend h input size).2 := by
  unfold httpContentAppend
  split
  · exact ⟨rfl, rfl, rfl, rfl, rfl, id, id⟩
  · split
    · exact ⟨rfl, rfl, rfl, rfl, rfl, id, id⟩
    · have hs := sameLink_store h (Mem.ofList input) size
      dsimp only
      split
      · exact ⟨hs.socketFd, hs.stateType, hs.actionType, hs.rspcode, hs.readCurLen, hs.pBody,
          fun _ hc => HttpReceiveStatus.noConfusion hc⟩
      · exact ⟨hs.socketFd, hs.stateType, hs.actionType, hs.rspcode, hs.readCurLen, hs.pBody,
          hs.receiveStatus⟩

/-- Where the first part of `http_chunkAppend` leads. -/
def SameTail (h : HttpClient) : Except (Bool × HttpClient) (Nat × Nat × HttpClient) → Prop
  | .error (_, h') => SameLink h h'
  | .ok (_, _, h') => SameLink h h'

theorem SameTail.ite {h : HttpClient} {c : Prop} [Decidable c]
    {a b : Except (Bool × HttpClient) (Nat × Nat × HttpClient)} (ha : SameTail h a)
    (hb : SameTail h b) : SameTail h (if c then a else b) := by
  split
  · exact ha
  · exact hb

theorem sameTail_chunkTail (h : HttpClient) (input : List UInt8) (size : Nat) :
    SameTail h (httpChunkTail h input size) := by
  unfold httpChunkTail
  dsimp only
  split
  · exact .refl h
  · generalize (if sub32 (httpChunkTailSize - 1) h.gHttpChunkTail.cnt < size then
      sub32 (httpChunkTailSize - 1) h.gHttpChunkTail.cnt else size) = tempLen
    split
    · exact ⟨rfl, rfl, rfl, rfl, rfl, id, id⟩
    · split
      · split <;> exact ⟨rfl, rfl, rfl, rfl, rfl, id, id⟩
      · exact ⟨rfl, rfl, rfl, rfl, rfl, id, id⟩

theorem sameLink_chunkRest (h : HttpClient) (input : List UInt8) (iss size : Nat) :
    SameLink h (httpChunkRest h input iss size).2.2 := by
  unfold httpChunkRest
  split
  · exact .refl h
  · dsimp only
    generalize (if h.httpCurChunkLen ≤ size then h.httpCurChunkLen else size) = rxLen
    have hs := sameLink_store h ((Mem.ofList input).ptr iss) rxLen
    split <;> exact ⟨hs.socketFd, hs.stateType, hs.actionType, hs.rspcode, hs.readCurLen,
      hs.pBody, hs.receiveStatus⟩

theorem sameTail_chunkLoop (input : List UInt8) :
    ∀ (fuel iss remaining : Nat) (h : HttpClient),
      SameTail h (httpChunkLoop fuel input iss remaining h)
  | 0, _, _, h => SameLink.refl h
  | fuel + 1, iss, remaining, h => by
      have hgo : ∀ (i r : Nat) (h' : HttpClient), SameLink h h' →
          SameTail h (httpChunkLoop fuel input i r h') := by
        intro i r h' hh
        have ih := sameTail_chunkLoop input fuel i r h'
        revert ih
        cases httpChunkLoop fuel input i r h' with
        | error e => exact fun ih => hh.trans ih
        | ok e => exact fun ih => hh.trans ih
      unfold httpChunkLoop
      split
      · exact .refl h
      · split
        · exact .refl h
        · next n _ =>
          split
          · exact ⟨rfl, rfl, rfl, rfl, rfl, id, id⟩
          · split
            · exact ⟨rfl, rfl, rfl, rfl, rfl, id, id⟩
            · split
              · exact hgo _ _ h (.refl h)
              · dsimp only
                split
                · exact ⟨rfl, rfl, rfl, rfl, rfl, id, fun _ hc => HttpReceiveStatus.noConfusion hc⟩
                · -- however much of the chunk is there, that much is stored
                  have hlen : SameLink h { h with
                      httpCurChunkLen := strtoul 16 ((input.drop iss).take n)
                      bodySize := strtoul 16 ((input.drop iss).take n) } :=
                    ⟨rfl, rfl, rfl, rfl, rfl, id, id⟩
                  exact .ite (hgo _ _ _ (.ite_snd (hlen.storeAnd _ _ _ _) hlen))
                    (hgo _ _ _ (.ite_snd (hlen.storeAnd _ _ _ _) hlen))

theorem sameLink_chunkAppend (h : HttpClient) (input : List UInt8) (size : Nat) :
    SameLink h (httpChunkAppend h input size).2 := by
  unfold httpChunkAppend
  split
  · exact ⟨rfl, rfl, rfl, rfl, rfl, id, id⟩
  · have htail := sameTail_chunkTail h input size
    revert htail
    cases httpChunkTail h input size with
    | error r => exact id
    | ok r =>
        intro htail
        have hrest := htail.trans (sameLink_chunkRest r.2.2 input r.1 r.2.1)
        have hloop := sameTail_chunkLoop input (input.length + 1)
          (httpChunkRest r.2.2 input r.1 r.2.1).1 (httpChunkRest r.2.2 input r.1 r.2.1).2.1
          (httpChunkRest r.2.2 input r.1 r.2.1).2.2
        revert hloop
        dsimp only
        cases httpChunkLoop (input.length + 1) input (httpChunkRest r.2.2 input r.1 r.2.1).1
            (httpChunkRest r.2.2 input r.1 r.2.1).2.1
            (httpChunkRest r.2.2 input r.1 r.2.1).2.2 with
        | error r' => exact hrest.trans
        | ok r' =>
            intro hloop
            have hall := hrest.trans hloop
            dsimp only
            unfold httpChunkKeep
            split
            · exact ⟨hall.socketFd, hall.stateType, hall.actionType, hall.rspcode,
                hall.readCurLen, hall.pBody, hall.receiveStatus⟩
            · exact hall

theorem sameLink_appendRsp (h : HttpClient) (input : List UInt8) (size : Nat) :
    SameLink h (httpAppendRsp h input size).2 := by
  unfold httpAppendRsp
  split
  · exact sameLink_contentAppend h input size
  · exact sameLink_chunkAppend h input size
  · exact .refl h
  · exact .refl h

theorem sameLink_decodeLength (h : HttpClient) (rxBuf : List UInt8) :
    SameLink h (httpDecodeLength h rxBuf) := by
  unfold httpDecodeLength
  split
  · exact ⟨rfl, rfl, rfl, rfl, rfl, id, fun _ hc => HttpReceiveStatus.noConfusion hc⟩
  · split
    · exact .refl h
    · dsimp only
      split
      · split <;> exact ⟨rfl, rfl, rfl, rfl, rfl, id, fun _ hc => HttpReceiveStatus.noConfusion hc⟩
      · exact .refl h

theorem sameLink_decodeRspHeader (h : HttpClient) (rxBuf : List UInt8) :
    SameLink h (httpDecodeRspHeader h rxBuf).2 := by
  have hlen := sameLink_decodeLength h rxBuf
  have hbody : SameLink h { httpDecodeLength h rxBuf with pBody := some fun _ => 0 } :=
    ⟨hlen.socketFd, hlen.stateType, hlen.actionType, hlen.rspcode, hlen.readCurLen,
      fun _ => rfl, hlen.receiveStatus⟩
  unfold httpDecodeRspHeader
  split
  · exact ⟨rfl, rfl, rfl, rfl, rfl, id, id⟩
  · dsimp only
    split
    · exact ⟨hlen.socketFd, hlen.stateType, hlen.actionType, hlen.rspcode, hlen.readCurLen,
        hlen.pBody, fun _ hc => HttpReceiveStatus.noConfusion hc⟩
    · split
      · exact hlen
      · split
        · split
          · exact hbody.trans (sameLink_appendRsp _ _ _)
          · exact hbody
        · exact hlen

/-! ## What the receiver ends in -/

/-- What a request ends in, when `bytes` is all that arrives and `k` still delivers a part of it:
an answer, with the client at rest; or the way of a redirection, behind a header. -/
inductive Received (h : HttpClient) (bytes : List UInt8) : HttpClient × HttpAnswer → Sock → Prop
  | answered {h' : HttpClient} {k : Sock} {errCode contentLen : Nat} {code : Int} :
      h'.isRunning = false → h'.stateType = .urlReady →
      (h'.socketFd = h.socketFd ∨ h'.socketFd = -1) →
      Received h bytes (h', .rspCb errCode code contentLen) k
  | redirected {h' : HttpClient} {k : Sock} {t : List UInt8} : h'.socketFd = h.socketFd →
      h'.stateType = h.stateType → h'.actionType = h.actionType →
      h'.readCurLen = h.readCurLen → (h.pBody.isSome → h'.pBody.isSome) →
      h'.rspcode ≠ httpResponseCodeOk → t ++ k.bytes = bytes → (strstr t headerEnd).isSome →
      Received h bytes (h', .redirect) k

theorem httpResetStatus_rest {h : HttpClient} (hst : h.stateType ≠ .none)
    (hget : h.stateType ≠ .urlGetting) :
    (httpResetStatus h).isRunning = false ∧ (httpResetStatus h).stateType = .urlReady ∧
      (httpResetStatus h).socketFd = -1 := by
  have hclear : (httpClearBuf { h with rspReach := false }).stateType = h.stateType := by
    unfold httpClearBuf
    split <;> rfl
  refine ⟨rfl, ?_, rfl⟩
  unfold httpResetStatus httpCloseSocket
  dsimp only
  rw [hclear]
  split
  · contradiction
  · contradiction
  · rfl

/-- The status of a response with a body. -/
def HasBody (h : HttpClient) : Prop :=
  h.rspcode = httpResponseCodeOk ∨ h.rspcode = httpResponseCodePartialContent

/-- In the loop: as long as a header is awaited, `temp` is all that has arrived, and behind it
there is a body. -/
structure Arriving (h : HttpClient) (bytes temp : List UInt8) (h' : HttpClient) (k : Sock) :
    Prop where
  socketFd : h'.socketFd = h.socketFd
  stateType : h'.stateType = h.stateType
  actionType : h'.actionType = h.actionType
  readCurLen : h'.readCurLen = h.readCurLen
  pBody : h.pBody.isSome → h'.pBody.isSome
  temp : h'.receiveStatus = .header → temp ++ k.bytes = bytes
  hasBody : h'.receiveStatus ≠ .header → h'.HasBody

variable {h h' h'' : HttpClient} {bytes temp : List UInt8} {k k' : Sock}

theorem Arriving.start (hheader : h.receiveStatus = .header) (k : Sock) :
    Arriving h k.bytes [] h k :=
  ⟨rfl, rfl, rfl, rfl, id, fun _ => rfl, fun hno => absurd hheader hno⟩

theorem Arriving.reset (ha : Arriving h bytes temp h' k) (hs : SameLink h' h'')
    (hst : h.stateType ≠ .none) (hget : h.stateType ≠ .urlGetting) (errCode contentLen n : Nat)
    (code rspcode : Int) : Received h bytes ({ httpResetStatus h'' with
      httpErrCode := n, rspcode := rspcode }, .rspCb errCode code contentLen) k' := by
  have hstate : h''.stateType = h.stateType := hs.stateType.trans ha.stateType
  obtain ⟨hrun, hready, hfd⟩ := httpResetStatus_rest (hstate ▸ hst) (hstate ▸ hget)
  exact .answered hrun hready (.inr hfd)

theorem received_result (hfd : h'.socketFd = h.socketFd) :
    Received h bytes (httpResultRspHandler h') k := by
  rw [httpResultRspHandler_eq]
  refine .answered rfl rfl ?_
  dsimp only
  split
  · exact .inr rfl
  · exact .inl hfd

/-- Only a response that redirects is not answered. -/
theorem Arriving.status (ha : Arriving h bytes temp h' k) (hk : temp ++ k.bytes = bytes)
    (hend : (strstr temp headerEnd).isSome) (code : Int) :
    Received h bytes (httpRspStatus { h' with rspcode := code }) k := by
  unfold httpRspStatus
  dsimp only
  split
  · next hcode =>
    have hno : code ≠ httpResponseCodeOk := by
      rintro rfl
      exact absurd hcode (by decide)
    exact .redirected ha.socketFd ha.stateType ha.actionType ha.readCurLen ha.pBody hno hk hend
  · exact received_result ha.socketFd

/-- A response with a body does not redirect. -/
theorem received_answer (hfd : h'.socketFd = h.socketFd) (hbody : h'.HasBody) :
    Received h bytes (rspAnswer h') k := by
  have hno : h'.rspcode ∉ ([301, 308, 300, 302, 303, 307] : List Int) := by
    rcases hbody with hc | hc <;> rw [hc] <;> decide
  unfold rspAnswer httpRspStatus
  dsimp only
  rw [if_neg hno]
  exact received_result hfd

/-- Some more has arrived, and the header is still awaited. -/
theorem Arriving.more (ha : Arriving h bytes temp h' k) (hk : temp ++ k.bytes = bytes)
    {bs : List UInt8} (hbs : k.bytes = bs ++ k'.bytes) : Arriving h bytes (temp ++ bs) h' k' :=
  ⟨ha.socketFd, ha.stateType, ha.actionType, ha.readCurLen, ha.pBody,
    fun _ => by rw [List.append_assoc, ← hbs, hk], ha.hasBody⟩

/-- The header of a response with a body has been decoded. -/
theorem Arriving.decoded (ha : Arriving h bytes temp h' k) (hk : temp ++ k.bytes = bytes)
    {code : Int} (hbody : code = httpResponseCodeOk ∨ code = httpResponseCodePartialContent)
    (hs : SameLink { h' with rspcode := code } h'') : Arriving h bytes temp h'' k :=
  ⟨hs.socketFd.trans ha.socketFd, hs.stateType.trans ha.stateType,
    hs.actionType.trans ha.actionType, hs.readCurLen.trans ha.readCurLen,
    fun hb => hs.pBody (ha.pBody hb), fun _ => hk,
    fun _ => by rwa [HasBody, hs.rspcode]⟩

/-- More of the body has arrived. -/
theorem Arriving.append (ha : Arriving h bytes temp h' k) (hno : h'.receiveStatus ≠ .header)
    (hs : SameLink h' h'') : Arriving h bytes temp h'' k' :=
  ⟨hs.socketFd.trans ha.socketFd, hs.stateType.trans ha.stateType,
    hs.actionType.trans ha.actionType, hs.readCurLen.trans ha.readCurLen,
    fun hb => hs.pBody (ha.pBody hb),
    fun hc => absurd hc (hs.receiveStatus hno),
    fun _ => by rw [HasBody, hs.rspcode]; exact ha.hasBody hno⟩

/-- **The receive loop** ends in nothing else, whatever arrives. -/
theorem received_of_receiveRsp (hst : h.stateType ≠ .none) (hget : h.stateType ≠ .urlGetting) :
    ∀ (fuel : Nat) (temp : List UInt8) (h' : HttpClient) (k : Sock)
      (r : (HttpClient × HttpAnswer) × Sock),
      Arriving h bytes temp h' k → httpReceiveRsp fuel temp h' k = some r →
      Received h bytes r.1 r.2
  | 0, _, _, _, _, _, hr => by
      unfold httpReceiveRsp at hr
      exact absurd hr (by simp)
  | fuel + 1, temp, h', k, r, ha, hr => by
      unfold httpReceiveRsp at hr
      split at hr
      · obtain rfl := Option.some.inj hr
        exact ha.reset (.refl h') hst hget _ _ _ _ _
      · split at hr
        · obtain rfl := Option.some.inj hr
          exact ha.reset (.refl h') hst hget _ _ _ _ _
        · split at hr
          · obtain rfl := Option.some.inj hr
            exact ha.reset (.refl h') hst hget _ _ _ _ _
          · next bs k' hrecv =>
            obtain ⟨-, -, hbs⟩ := Sock.bytes_of_recv_some (by decide) hrecv
            split at hr
            · next hheader =>
              have hmore := ha.more (ha.temp hheader) hbs
              have hk := hmore.temp hheader
              dsimp only at hr
              split at hr
              · exact received_of_receiveRsp hst hget fuel _ h' k' r hmore hr
              · next hend =>
                split at hr
                · next hbody =>
                  have hdec := sameLink_decodeRspHeader
                    { h' with rspcode := (httpParseRspCode (temp ++ bs)).bmod 65536 } (temp ++ bs)
                  have harr := hmore.decoded hk hbody hdec
                  split at hr
                  · obtain rfl := Option.some.inj hr
                    exact harr.reset (.refl _) hst hget _ _ _ _ _
                  · split at hr
                    · obtain rfl := Option.some.inj hr
                      refine received_answer harr.socketFd ?_
                      rwa [HasBody, hdec.rspcode]
                    · exact received_of_receiveRsp hst hget fuel _ _ k' r harr hr
                · obtain rfl := Option.some.inj hr
                  exact hmore.status hk (Option.isSome_iff_ne_none.mpr (by simpa using hend)) _
            · next hno =>
              have happ := sameLink_appendRsp h' bs bs.length
              have harr : Arriving h bytes temp _ k' := ha.append hno happ
              dsimp only at hr
              split at hr
              · obtain rfl := Option.some.inj hr
                exact harr.reset (.refl _) hst hget _ _ _ _ _
              · split at hr
                · obtain rfl := Option.some.inj hr
                  exact received_answer harr.socketFd (harr.hasBody (happ.receiveStatus hno))
                · exact received_of_receiveRsp hst hget fuel _ _ k' r harr hr

/-- The loop ends, with a byte less to receive in every pass. -/
theorem receiveRsp_ends :
    ∀ (fuel : Nat) (temp : List UInt8) (h : HttpClient) (k : Sock), k.bytes.length < fuel →
      ∃ r, httpReceiveRsp fuel temp h k = some r
  | 0, _, _, _, hlt => absurd hlt (Nat.not_lt_zero _)
  | fuel + 1, temp, h, k, hlt => by
      unfold httpReceiveRsp
      split
      · exact ⟨_, rfl⟩
      · split
        · exact ⟨_, rfl⟩
        · split
          · exact ⟨_, rfl⟩
          · next bs k' hrecv =>
            have hgo (t : List UInt8) (h' : HttpClient) :
                ∃ r, httpReceiveRsp fuel t h' k' = some r := by
              obtain ⟨hne, -, hbytes⟩ := Sock.bytes_of_recv_some (by decide) hrecv
              refine receiveRsp_ends fuel t h' k' ?_
              have hpos := List.length_pos_iff.mpr hne
              rw [hbytes, List.length_append] at hlt
              omega
            dsimp only
            split
            · split
              · exact hgo _ _
              · split
                · split
                  · exact ⟨_, rfl⟩
                  · split
                    · exact ⟨_, rfl⟩
                    · exact hgo _ _
                · exact ⟨_, rfl⟩
            · split
              · exact ⟨_, rfl⟩
              · split
                · exact ⟨_, rfl⟩
                · exact hgo _ _

end HttpClient

end IntercomSalve
