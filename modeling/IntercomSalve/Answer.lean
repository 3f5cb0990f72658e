/-
# `Answer` — who is told that a call is answered

A CALL that finds the device idle is answered: a frame goes back to the caller, the
caller is remembered in `mail_list[3]`, and the relay of the road is closed.  The road
and the IMEI are read out of the receive buffer through `handle_deviation`, but the
handler has set that to 0 on the way.  So what is read stands where a frame at the start
of the chunk has its road and IMEI, wherever the frame is (`calledAnswer_answers`), and
the caller is answered exactly if the same bytes stand in both places (`answer_iff`).
-/
import IntercomSalve.Framing
import IntercomSalve.HangUp
import IntercomSalve.Reports

namespace IntercomSalve

open Goto

/-! ## The caller -/

/-- A complete CALL frame stands `d` bytes into the chunk. -/
structure CallFrameAt (chunk : List UInt8) (d : Nat) : Prop where
  whole : d + 25 ≤ chunk.length
  header : chunk.getD d 0 = 0xAA ∧ chunk.getD (d + 1) 0 = 0xFA ∧ chunk.getD (d + 2) 0 = 0x00 ∧
    chunk.getD (d + 3) 0 = 0x00
  cmd : chunk.getD (d + 5) 0 = 0x05
  code : chunk.getD (d + 9) 0 = DialReqReqCall.call1.code

/-- The road of a frame `d` bytes into the chunk. -/
def callerRoad (chunk : List UInt8) (d : Nat) : UInt8 := chunk.getD (d + 8) 0

/-- Its IMEI. -/
def callerImei (chunk : List UInt8) (d : Nat) : List UInt8 := (Mem.ofList chunk).slice (d + 10) 15

/-- The call of `imei` on channel `road` is answered. -/
structure AnswersCaller (road : UInt8) (imei : List UInt8) (s t : App) : Prop where
  reply : t.sent = s.sent ++
    ([0xAA, 0xFA, 0x00, 0x00, 0x01, 0x06, 0x00, 0x11, road, 0x32] ++ imei)
  mailList : t.call.imei 3 = imei ∧ t.call.mailList 3 15 = road
  mailListRoad : t.call.mailListRoad = road
  relay : ∃ rest, t.wires.posted = s.wires.posted ++
    [[0x63, 0x6d, 0x64, 0x02, road - 0x30, 1] ++ rest]

/-- Only one caller is answered. -/
theorem AnswersCaller.unique {road road' : UInt8} {imei imei' : List UInt8} {s t : App}
    (h : AnswersCaller road imei s t) (h' : AnswersCaller road' imei' s t) :
    road = road' ∧ imei = imei' :=
  ⟨h.mailListRoad.symm.trans h'.mailListRoad, h.mailList.1.symm.trans h'.mailList.1⟩

/-! ## Whom the handler answers -/

/-- The entry of the caller, once it is written. -/
theorem answered_mailList (c : Call) (road : UInt8) (imei : Mem) :
    (c.answered road imei).imei 3 = imei.slice 0 15 ∧ (c.answered road imei).mailList 3 15 = road := by
  have hentry : (c.answered road imei).mailList 3 =
      Function.update ((c.mailList 3).memcpy 0 imei 15) 15 road := by
    simp [Call.answered]
  refine ⟨?_, ?_⟩
  · unfold Call.imei
    rw [hentry]
    refine Mem.slice_congr fun k hk => ?_
    rw [Function.update_of_ne (by omega)]
    show (if 0 ≤ 0 + k ∧ 0 + k < 0 + 15 then imei (0 + k - 0) else _) = imei (0 + k)
    rw [if_pos (by omega)]
    rfl
  · rw [hentry, Function.update_self]

theorem calledAnswer_call {s : App} (hop : s.call.callUserOperation = 0) :
    (calledAnswer s).call =
      (clearVars s).call.answered (s.rx.pRecv 8) (s.rx.pRecv.ptr 10) := by
  have hanswer : calledAnswer s =
      answerCall (s.rx.pRecv 8) (s.rx.pRecv.ptr 10) (clearVars s) := if_neg (not_not.mpr hop)
  rw [hanswer]
  rfl

/-- **A CALL that finds the device idle is answered** with the road and the IMEI that a frame at
the start of the buffer would have. -/
theorem isCmd_answers {ret : Nat} {w : App} (hs : HandleOk w)
    (hframe : frameAt ⟨w, some ret⟩ = some .instruction5)
    (hcode : w.rx.byteAt 9 = DialReqReqCall.call1.code) (hop : w.call.callUserOperation = 0)
    (hall : w.call.isMailListALL = 0) :
    AnswersCaller (w.rx.pRecv 8) (w.rx.pRecv.slice 10 15) w (isCmd ret w).state := by
  have hcall1 : DialReqReqCall.ofCode (w.rx.byteAt 9) = some .call1 :=
    DialReqReqCall.ofCode_eq_some.mpr hcode
  have hevent : calledEvent w = .answered := by
    unfold calledEvent
    rw [if_neg (not_not.mpr hall), hcall1]
    exact if_neg (not_not.mpr hop)
  have hwires : (isCmd ret w).state.wires =
      (⟨[answerFrame .return2 (w.rx.pRecv 8) (w.rx.pRecv.ptr 10)],
        uart3Cmd .uart3Write 0x02 [w.rx.pRecv 8 - 0x30, 1]⟩ : Effect).after w.wires := by
    rw [isCmd_wires ret hs]
    simp only [effectOf, hframe, frameEffect, calledEffect, hevent]
    rfl
  have hcase : (isCmd ret w).state.call = (calledAnswer (opened .instruction5 w)).call := by
    rcases isCmd_frameAt ret w with ⟨c, hc, h⟩ | ⟨hc, -⟩
    · rw [hframe] at hc
      obtain rfl := Option.some.inj hc
      have hhander : calledReqReqCallReturnHander (opened .instruction5 w) =
          calledAnswer (opened .instruction5 w) := by
        unfold calledReqReqCallReturnHander
        rw [if_neg (not_not.mpr (show (opened .instruction5 w).call.isMailListALL = 0 from hall)),
          show DialReqReqCall.ofCode ((opened .instruction5 w).rx.byteAt 9) = some .call1 from hcall1]
      rw [h, ← hhander]
      rfl
    · rw [hframe] at hc
      exact absurd hc (by simp)
  have hcall := hcase.trans (calledAnswer_call (s := opened .instruction5 w) hop)
  obtain ⟨himei, hroad⟩ := answered_mailList (clearVars (opened .instruction5 w)).call
    (w.rx.pRecv 8) (w.rx.pRecv.ptr 10)
  refine ⟨?_, ?_, ?_, ?_⟩
  · unfold App.sent
    rw [hwires, ← ptr_slice]
    simp [Effect.after, Wires.command, Wires.send, answerFrame, dialFrame, Frame.own, Frame.bytes]
    exact ⟨by decide, rfl⟩
  · rw [hcall]
    exact ⟨himei.trans (ptr_slice _ _ _), hroad⟩
  · rw [hcall]
    rfl
  · rw [hwires]
    exact ⟨_, rfl⟩

/-! ## Whom it should answer -/

theorem visits_pRecv {ret : Nat} {u w : App} (h : Visits (isCmd ret) u w) :
    w.rx.pRecv = u.rx.pRecv ∧ w.head = u.head := by
  refine h.invariant (I := fun w => w.rx.pRecv = u.rx.pRecv ∧ w.head = u.head) ⟨rfl, rfl⟩ ?_
  rintro a b ⟨ha, hhead⟩ hab
  have hside := isCmd_recvSide ret a
  rw [hab] at hside
  exact ⟨hside.pRecv.trans ha, hside.head.trans hhead⟩

/-- **The caller is answered** exactly if its road and its IMEI stand where those of a frame at
the start of the chunk would stand.  `w` is the state in which the frame is found. -/
theorem answer_iff {n d : Nat} {chunk : List UInt8} {s u w : App} (hs : HandleOk s)
    (hu : message122 n chunk s = .again u) (hw : Visits (isCmd chunk.length) u w)
    (hd : w.rx.handleDeviation = d) (hframe : CallFrameAt chunk d)
    (hop : w.call.callUserOperation = 0) (hall : w.call.isMailListALL = 0) :
    AnswersCaller (callerRoad chunk d) (callerImei chunk d) w (isCmd chunk.length w).state ↔
      callerRoad chunk 0 = callerRoad chunk d ∧ callerImei chunk 0 = callerImei chunk d := by
  have hside := message122_recvSide n chunk s
  rw [hu] at hside
  obtain ⟨hbuf, hhead⟩ := visits_pRecv hw
  have hok : HandleOk w := .of_head (hhead.trans hside.head) hs
  have hbyte : ∀ i, i < chunk.length → w.rx.pRecv i = chunk.getD i 0 := by
    intro i hi
    rw [hbuf]
    exact (congrFun hside.pRecv i).trans (received_of_lt hi)
  have hwhole := hframe.whole
  have hat : ∀ k, k < 25 → w.rx.byteAt k = chunk.getD (d + k) 0 := by
    intro k hk
    rw [Rx.byteAt, hd, Nat.add_comm]
    exact hbyte _ (by omega)
  have hheader : headerAt w := by
    obtain ⟨h0, h1, h2, h3⟩ := hframe.header
    rw [headerAt_iff hok, hat 0 (by omega), hat 1 (by omega), hat 2 (by omega), hat 3 (by omega)]
    exact ⟨h0, h1, h2, h3⟩
  have hcase : frameAt ⟨w, some chunk.length⟩ = some .instruction5 := by
    rw [frameAt_some (by omega) hheader, caseAt_eq_some]
    refine ⟨?_, rfl⟩
    show (w.rx.byteAt 5).toNat = 5
    rw [hat 5 (by omega), hframe.cmd]
    rfl
  have hanswers := isCmd_answers hok hcase ((hat 9 (by omega)).trans hframe.code) hop hall
  have hroad : w.rx.pRecv 8 = callerRoad chunk 0 := hbyte 8 (by omega)
  have himei : w.rx.pRecv.slice 10 15 = callerImei chunk 0 :=
    Mem.slice_congr fun k hk => hbyte (10 + k) (by omega)
  rw [hroad, himei] at hanswers
  constructor
  · intro h
    exact hanswers.unique h
  · rintro ⟨h1, h2⟩
    rwa [h1, h2] at hanswers

/-- A CALL alone in its chunk is answered. -/
theorem firstFrame_answered :
    ∃ n s u, Receives n s ∧ message122 n (peerFrame 0x31 0x37) s = .again u ∧
      AnswersCaller 0x31 (List.replicate 15 0x37) u
        (isCmd (peerFrame 0x31 0x37).length u).state := by
  have hr := Receives.of_runActs (l := [.socketEvent (.readInd 25), .socket Platform.silent])
    rfl rfl rfl
  have hframe : CallFrameAt (peerFrame 0x31 0x37) 0 :=
    ⟨by decide, by decide, by decide, by decide⟩
  have hanswer := fun u (hu : message122 25 (peerFrame 0x31 0x37) _ = .again u)
    (hd : u.rx.handleDeviation = 0) => answer_iff hr.handleOk hu .refl hd hframe
  exact ⟨25, _, _, hr, rfl, (hanswer _ rfl rfl rfl rfl).mpr ⟨rfl, rfl⟩⟩

/-- A CALL behind the answer to a heartbeat: what is answered is road 0xAA. -/
theorem secondFrame_not_answered :
    ∃ n s u w, Receives n s ∧
      message122 n ([0xAA, 0xFA, 0x00, 0x00, 0x01, 0x11, 0x00, 0x00] ++ peerFrame 0x31 0x37) s =
        .again u ∧
      Visits (isCmd 33) u w ∧ w.rx.handleDeviation = 8 ∧ w.call.callUserOperation = 0 ∧
      w.call.isMailListALL = 0 ∧
      ¬ AnswersCaller 0x31 (List.replicate 15 0x37) w (isCmd 33 w).state := by
  have hr := Receives.of_runActs (l := [.socketEvent (.readInd 33), .socket Platform.silent])
    rfl rfl rfl
  refine ⟨33, _, _, _, hr, rfl, .tail .refl rfl, rfl, rfl, rfl, fun h => ?_⟩
  have hroad := h.mailListRoad
  exact absurd hroad (by decide)

end IntercomSalve
