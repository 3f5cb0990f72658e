/-
# `Reads` — which bytes of the receive buffer a frame's case reads

`caseReads` lists, for each command, the offsets behind the cursor that its case
reads; `absReads` the positions an answered call reads, which counts from the
start of the buffer because the handler resets the cursor first.  Both are read
off the source, and `caseOf_move` says that they are complete: a case that finds
the same bytes there, in whatever buffer and at whatever cursor, does the same.

The exceptions to "at whatever cursor" are the two hypotheses of the theorem: a
frame that resets the parser has to stand where it stood, and voice has to be
complete in both places, unless it stands where it stood.
-/
import IntercomSalve.Invariants

namespace IntercomSalve

open Goto

/-! ## `fill_audio` -/

/-- How many bytes `fill_audio` reads.  Past the end of the ring the two lengths are
computed in `uint32`, so from a position beyond it they may be very large. -/
def fillEnd (num lines : Nat) : Nat :=
  if lines ≤ 1 then 0
  else if playDataMax < num + lines then
    sub32 playDataMax num + sub32 lines (sub32 playDataMax num)
  else lines

/-- From the position `num` of the ring, `fill_audio` reads no more than it is given. -/
def RingOk (num lines : Nat) : Prop := fillEnd num lines ≤ lines

theorem ringOk_of_le {num lines : Nat} (h : num ≤ playDataMax) : RingOk num lines := by
  unfold RingOk fillEnd playDataMax at *
  split
  · omega
  · split
    · rw [sub32_of_le (a := 40000) (b := num) h, sub32_of_le (by omega)]
      omega
    · omega

theorem fillEnd_cases (num lines : Nat) : RingOk num lines ∨ 4294967296 ≤ fillEnd num lines := by
  unfold RingOk fillEnd sub32 playDataMax
  split
  · omega
  · split
    · split <;> split <;> omega
    · omega

theorem le_fillEnd {num lines : Nat} (h : 2 ≤ lines) : lines ≤ fillEnd num lines := by
  unfold fillEnd sub32 playDataMax
  rw [if_neg (by omega)]
  split
  · split <;> split <;> omega
  · omega

/-- `fill_audio` reads no other bytes. -/
theorem fillAudio_congr {pdat pdat' : Mem} {lines : Nat} {p : Play}
    (h : ∀ j, j < fillEnd p.playDataNum lines → pdat j = pdat' j) :
    fillAudio pdat lines p = fillAudio pdat' lines p := by
  unfold fillAudio
  by_cases h1 : lines ≤ 1
  · rw [if_pos h1, if_pos h1]
  · rw [if_neg h1, if_neg h1]
    have hheard : pdat.slice 0 lines = pdat'.slice 0 lines := by
      refine Mem.slice_congr fun k hk => ?_
      have hle : lines ≤ fillEnd p.playDataNum lines := le_fillEnd (by omega)
      exact h _ (by omega)
    have hdata :
        (if playDataMax < p.playDataNum + lines then
          (p.playData.memcpy p.playDataNum pdat (sub32 playDataMax p.playDataNum)).memcpy 0
            (pdat.ptr (sub32 playDataMax p.playDataNum))
            (sub32 lines (sub32 playDataMax p.playDataNum))
        else p.playData.memcpy p.playDataNum pdat lines) =
        (if playDataMax < p.playDataNum + lines then
          (p.playData.memcpy p.playDataNum pdat' (sub32 playDataMax p.playDataNum)).memcpy 0
            (pdat'.ptr (sub32 playDataMax p.playDataNum))
            (sub32 lines (sub32 playDataMax p.playDataNum))
        else p.playData.memcpy p.playDataNum pdat' lines) := by
      unfold fillEnd at h
      rw [if_neg h1] at h
      by_cases hw : playDataMax < p.playDataNum + lines
      · rw [if_pos hw] at h
        rw [if_pos hw, if_pos hw, Mem.memcpy_congr _ _ fun k hk => h k (by omega)]
        exact Mem.memcpy_congr _ _ fun k hk => h _ (by omega)
      · rw [if_neg hw] at h
        rw [if_neg hw, if_neg hw]
        exact Mem.memcpy_congr _ _ h
    simp only [hheard, hdata]

/-! ## The reads of a case -/

/-- The number of voice bytes given to `fill_audio`. -/
def voiceLines (n ret : Nat) (s : App) : Nat :=
  if VoiceWhole n ret s then s.rx.currentDataLength else voicePart n ret s

/-- Where the list of hosts ends. -/
def hostEnd (s : App) : Nat :=
  if s.rx.byteAt 23 = 44 then if s.rx.byteAt 39 = 44 then 55 else 40 else 24

/-- The case of command `c` reads `pRecv[k + handle_deviation]`. -/
def caseReads (ret : Nat) (c : SocketInstruction) (s : App) (k : Nat) : Prop :=
  match c with
  | .instruction4 => k = 8 ∨ k = 9
  | .instruction5 => s.call.isMailListALL = 0 ∧ (k = 8 ∨ k = 9)
  | .instruction10 => 8 ≤ k ∧ k < 8 + fillEnd s.play.playDataNum (voiceLines 8 ret s)
  | .instruction2 => 9 ≤ k ∧ k < 12
  | .instruction21 => 8 ≤ k ∧ k < hostEnd s
  | .instruction29 => 23 ≤ k ∧ k < 26
  | .instruction32 => 10 ≤ k ∧ k < 10 + sub32 s.rx.currentDataLength 7
  | .instruction34 =>
      k = 8 ∨ s.rx.byteAt 8 = 1 ∧
        (s.call.isMailListALL = 0 ∧ k = 9 ∨
          10 ≤ k ∧ k < 10 + fillEnd s.play.playDataNum (voiceLines 10 ret (setLength 80 s)))
  | _ => False

/-- The case of command `c` reads `pRecv[i]`, the cursor having been reset. -/
def absReads (c : SocketInstruction) (s : App) (i : Nat) : Prop :=
  c = .instruction5 ∧ calledResets s ∧ (i = 8 ∨ 10 ≤ i ∧ i < 25)

/-! ## Moving the frame -/

/-- Another buffer, and the cursor moved as from `d` to `e`. -/
def App.move (q : Mem) (d e : Nat) (s : App) : App :=
  { s with rx.pRecv := q, rx.handleDeviation := s.rx.handleDeviation + e - d }

theorem relayCmd_move {q : Mem} {d e : Nat} {s : App} {on : UInt8}
    (h : (s.move q d e).rx.byteAt 8 = s.rx.byteAt 8) :
    relayCmd on (s.move q d e) = (relayCmd on s).move q d e := by
  unfold relayCmd
  rw [h]
  rfl

theorem endByFrame_move {q : Mem} {d e : Nat} {s : App}
    (h : (s.move q d e).rx.byteAt 8 = s.rx.byteAt 8) :
    endByFrame (s.move q d e) = (endByFrame s).move q d e := by
  exact relayCmd_move (q := q) (d := d) (e := e)
    (s := { (App.postAudio (if s.call.callUserTim > callMaxTim - 2 then .hmiNews3 else .hmiNews2)
      { s with call.callUserOperation := 0 }) with call.callUserTim := 0 }) h

theorem dialBusy_move {q : Mem} {d e : Nat} {s : App}
    (h : (s.move q d e).rx.byteAt 8 = s.rx.byteAt 8) :
    dialBusy (s.move q d e) = (dialBusy s).move q d e := by
  by_cases hop : s.call.callUserOperation = 1
  · unfold dialBusy
    rw [if_pos hop, if_pos (show (s.move q d e).call.callUserOperation = 1 from hop)]
    cases hb : breakOtherChannel s.call with
    | some c => rw [show breakOtherChannel (s.move q d e).call = some c from hb]; rfl
    | none =>
        rw [show breakOtherChannel (s.move q d e).call = none from hb]
        exact relayCmd_move (q := q) (d := d) (e := e)
          (s := App.postAudio .hmiNews4 { s with
            call.callUserOperation := 0, call.callUserTim := 0, call.isHostBusy := 1 }) h
  · unfold dialBusy
    rw [if_neg hop, if_neg (show ¬ (s.move q d e).call.callUserOperation = 1 from hop)]

theorem dialRefused_move {q : Mem} {d e : Nat} {s : App}
    (h : (s.move q d e).rx.byteAt 8 = s.rx.byteAt 8) :
    dialRefused (s.move q d e) = (dialRefused s).move q d e := by
  unfold dialRefused
  cases hb : breakOtherChannel s.call with
  | some c => rw [show breakOtherChannel (s.move q d e).call = some c from hb]; rfl
  | none =>
      rw [show breakOtherChannel (s.move q d e).call = none from hb]
      exact endByFrame_move h

theorem dialAccepted_move (q : Mem) (d : Nat) (s : App) :
    dialAccepted (s.move q d d) = (dialAccepted s).move q d d := by
  have h0 : 0 + d - d = 0 := by omega
  unfold App.move dialAccepted
  simp only [Rx.clear, App.postMp3, h0]

/-- An answer to our own call. -/
theorem dial_move {q : Mem} {d e : Nat} {s : App}
    (h8 : (s.move q d e).rx.byteAt 8 = s.rx.byteAt 8)
    (h9 : (s.move q d e).rx.byteAt 9 = s.rx.byteAt 9) (hr : dialResets s → d = e) :
    dialReqReqCallReturnHander (s.move q d e) =
      (dialReqReqCallReturnHander s).move q d e := by
  unfold dialReqReqCallReturnHander
  rw [h9]
  cases hc : CallReturn.ofCode (s.rx.byteAt 9) with
  | none => rfl
  | some c =>
      have hb := CallReturn.ofCode_eq_some.mp hc
      cases c with
      | return0 => exact dialBusy_move h8
      | return1 => rfl
      | return2 =>
          obtain rfl := hr (Or.inl hb)
          exact dialAccepted_move q d s
      | return3 => exact dialRefused_move h8
      | return4 =>
          obtain rfl := hr (Or.inr hb)
          exact dialAccepted_move q d s
      | return5 => exact dialRefused_move h8

theorem clearVars_move (q : Mem) (d : Nat) (s : App) :
    clearVars (s.move q d d) = (clearVars s).move q d d := by
  have h0 : 0 + d - d = 0 := by omega
  unfold App.move clearVars
  simp only [Rx.clear, h0]

/-- Of the IMEI fifteen bytes are used. -/
theorem answerCall_congr {road : UInt8} {imei imei' : Mem} {s : App}
    (h : ∀ k, k < 15 → imei k = imei' k) : answerCall road imei s = answerCall road imei' s := by
  have hcall : s.call.answered road imei = s.call.answered road imei' := by
    unfold Call.answered
    rw [Mem.memcpy_congr _ 0 h]
  unfold answerCall sendCallFrame
  rw [hcall]
  simp only [Mem.memcpy_congr _ 10 h]

theorem answerCall_move {q : Mem} {d e : Nat} {road : UInt8} {imei : Mem} {s : App}
    (h8 : (s.move q d e).rx.byteAt 8 = s.rx.byteAt 8) :
    answerCall road imei (s.move q d e) = (answerCall road imei s).move q d e :=
  relayCmd_move (q := q) (d := d) (e := e)
    (s := App.postMp3 .stopAudioStart (sendCallFrame .instruction6 road CallReturn.return2.code imei
      { s with call := s.call.answered road imei })) h8

theorem calledAnswer_move {q : Mem} {d e : Nat} {s : App}
    (hr : s.call.callUserOperation = 0 → d = e)
    (h8 : s.call.callUserOperation = 0 → q 8 = s.rx.pRecv 8)
    (himei : s.call.callUserOperation = 0 → ∀ k, k < 15 → q (10 + k) = s.rx.pRecv (10 + k)) :
    calledAnswer (s.move q d e) = (calledAnswer s).move q d e := by
  unfold calledAnswer
  by_cases hop : s.call.callUserOperation = 0
  · obtain rfl := hr hop
    rw [if_neg (not_not.mpr hop),
      if_neg (not_not.mpr (show (s.move q d d).call.callUserOperation = 0 from hop)),
      clearVars_move]
    have hcur : ((clearVars s).move q d d).rx.handleDeviation = 0 := by
      show 0 + d - d = 0
      omega
    have hb8 : ((clearVars s).move q d d).rx.byteAt 8 = (clearVars s).rx.byteAt 8 := by
      rw [Rx.byteAt, hcur]
      exact h8 hop
    rw [hb8, answerCall_move hb8]
    refine congrArg (App.move q d d) (answerCall_congr fun k hk => ?_)
    rw [Rx.bytesAt, hcur]
    exact himei hop k hk
  · rw [if_pos hop, if_pos (show ¬ (s.move q d e).call.callUserOperation = 0 from hop)]
    rfl

theorem calledHangUp_move {q : Mem} {d e : Nat} {s : App}
    (h8 : (s.move q d e).rx.byteAt 8 = s.rx.byteAt 8) :
    calledHangUp (s.move q d e) = (calledHangUp s).move q d e := by
  unfold calledHangUp
  by_cases hid : s.call.mailListId = 0
  · rw [if_neg (not_not.mpr hid),
      if_neg (not_not.mpr (show (s.move q d e).call.mailListId = 0 from hid))]
    exact endByFrame_move h8
  · rw [if_pos hid, if_pos (show ¬ (s.move q d e).call.mailListId = 0 from hid)]
    rfl

/-- A call of another. -/
theorem called_move {q : Mem} {d e : Nat} {s : App}
    (hrel : s.call.isMailListALL = 0 → ∀ k, k = 8 ∨ k = 9 →
      (s.move q d e).rx.byteAt k = s.rx.byteAt k)
    (habs : calledResets s → ∀ i, i = 8 ∨ 10 ≤ i ∧ i < 25 → q i = s.rx.pRecv i)
    (hr : calledResets s → d = e) :
    calledReqReqCallReturnHander (s.move q d e) =
      (calledReqReqCallReturnHander s).move q d e := by
  unfold calledReqReqCallReturnHander
  by_cases hall : s.call.isMailListALL = 0
  · rw [if_neg (not_not.mpr hall),
      if_neg (not_not.mpr (show (s.move q d e).call.isMailListALL = 0 from hall)),
      hrel hall 9 (Or.inr rfl)]
    have h8 := hrel hall 8 (Or.inl rfl)
    cases hc : DialReqReqCall.ofCode (s.rx.byteAt 9) with
    | none => rfl
    | some c =>
        have hb := DialReqReqCall.ofCode_eq_some.mp hc
        cases c with
        | call1 =>
            refine calledAnswer_move (fun hop => hr ⟨hall, hb, hop⟩) ?_ ?_
            · exact fun hop => habs ⟨hall, hb, hop⟩ 8 (Or.inl rfl)
            · exact fun hop k hk => habs ⟨hall, hb, hop⟩ (10 + k) (Or.inr ⟨by omega, by omega⟩)
        | call2 => exact calledHangUp_move h8
        | call3 => rfl
        | call4 => exact calledHangUp_move h8
  · rw [if_pos hall, if_pos (show ¬ (s.move q d e).call.isMailListALL = 0 from hall)]

theorem advance_move {q : Mem} {d e : Nat} (n : Nat) {s : App}
    (hd : d ≤ s.rx.handleDeviation + e) :
    advance n (s.move q d e) = (advance n s).move q d e := by
  have hcur : s.rx.handleDeviation + e - d + (s.rx.currentDataLength + n) =
      s.rx.handleDeviation + (s.rx.currentDataLength + n) + e - d := by omega
  unfold App.move advance
  simp only [hcur]

/-- The cursor a moved frame is read at. -/
theorem move_byteAt {q : Mem} {d e k : Nat} {s : App} (hd : s.rx.handleDeviation = d) :
    (s.move q d e).rx.byteAt k = q (k + e) := by
  show q (k + (s.rx.handleDeviation + e - d)) = q (k + e)
  congr 1
  omega

theorem move_bytesAt {q : Mem} {d e k n : Nat} {s : App} (hd : s.rx.handleDeviation = d)
    (h : ∀ j, k ≤ j → j < k + n → (s.move q d e).rx.byteAt j = s.rx.byteAt j) :
    ∀ j, j < n → (s.move q d e).rx.bytesAt k j = s.rx.bytesAt k j := by
  intro j hj
  have hb := h (k + j) (by omega) (by omega)
  rw [move_byteAt hd] at hb
  show q (k + (s.rx.handleDeviation + e - d) + j) = s.rx.pRecv (k + s.rx.handleDeviation + j)
  rw [show k + (s.rx.handleDeviation + e - d) + j = k + j + e by omega, hb, Rx.byteAt]
  congr 1
  omega

theorem loginReturn_move {q : Mem} {d e : Nat} {s : App} (hd : s.rx.handleDeviation = d)
    (h : ∀ k, 9 ≤ k ∧ k < 12 → (s.move q d e).rx.byteAt k = s.rx.byteAt k) :
    loginReturn (s.move q d e) = (loginReturn s).move q d e := by
  have h9 := h 9 (by omega)
  have h10 := h 10 (by omega)
  have h11 := h 11 (by omega)
  unfold loginReturn
  rw [h9, h10, h11]
  exact advance_move 8 (s := { loginCmd (s.rx.byteAt 9) (s.rx.byteAt 10) (s.rx.byteAt 11) s with
    link := s.link.loggedIn }) (by show d ≤ s.rx.handleDeviation + e; omega)

theorem setImei_congr {c : Call} {k : Fin 4} {src src' : Mem} (h : ∀ j, j < 15 → src j = src' j) :
    c.setImei k src = c.setImei k src' := by
  unfold Call.setImei
  rw [Mem.memcpy_congr _ 0 h]

theorem hosts_move {q : Mem} {d e : Nat} {s : App} (c : Call) (hd : s.rx.handleDeviation = d)
    (h : ∀ k, 8 ≤ k ∧ k < hostEnd s → (s.move q d e).rx.byteAt k = s.rx.byteAt k) :
    c.hosts (s.move q d e).rx = c.hosts s.rx := by
  have himei : ∀ i, 8 ≤ i → i + 15 ≤ hostEnd s → ∀ j, j < 15 →
      (s.move q d e).rx.bytesAt i j = s.rx.bytesAt i j := by
    intro i hi hend
    exact move_bytesAt hd fun j hj hj' => h j (by omega)
  unfold Call.hosts
  by_cases h23 : s.rx.byteAt 23 = 44
  · by_cases h39 : s.rx.byteAt 39 = 44
    · have hend : hostEnd s = 55 := by rw [hostEnd, if_pos h23, if_pos h39]
      rw [h 23 (by omega), h 39 (by omega)]
      simp only [if_pos h23, if_pos h39]
      rw [setImei_congr (himei 8 (by omega) (by omega)),
        setImei_congr (himei 24 (by omega) (by omega)),
        setImei_congr (himei 40 (by omega) (by omega))]
    · have hend : hostEnd s = 40 := by rw [hostEnd, if_pos h23, if_neg h39]
      rw [h 23 (by omega), h 39 (by omega)]
      simp only [if_pos h23, if_neg h39]
      rw [setImei_congr (himei 8 (by omega) (by omega)),
        setImei_congr (himei 24 (by omega) (by omega))]
  · have hend : hostEnd s = 24 := by rw [hostEnd, if_neg h23]
    rw [h 23 (by omega)]
    simp only [if_neg h23]
    rw [setImei_congr (himei 8 (by omega) (by omega))]

theorem hostList_move {q : Mem} {d e : Nat} {s : App} (hd : s.rx.handleDeviation = d)
    (h : ∀ k, 8 ≤ k ∧ k < hostEnd s → (s.move q d e).rx.byteAt k = s.rx.byteAt k) :
    hostList (s.move q d e) = (hostList s).move q d e := by
  unfold hostList
  rw [show (s.move q d e).call = s.call from rfl, hosts_move s.call hd h]
  exact advance_move 8 (s := { s with
    call := s.call.hosts s.rx, link.mailListTim := 0, link.logonImei := 1 })
    (by show d ≤ s.rx.handleDeviation + e; omega)

theorem relayControl_move {q : Mem} {d e : Nat} {s : App} (hd : s.rx.handleDeviation = d)
    (h : ∀ k, 23 ≤ k ∧ k < 26 → (s.move q d e).rx.byteAt k = s.rx.byteAt k) :
    relayControl (s.move q d e) = (relayControl s).move q d e := by
  have h23 := h 23 (by omega)
  have h24 := h 24 (by omega)
  have h25 := h 25 (by omega)
  unfold relayControl
  rw [h23, h24, h25]
  exact advance_move 8 (s := jdqCmd (s.rx.byteAt 23) (s.rx.byteAt 24) (s.rx.byteAt 25) s)
    (by show d ≤ s.rx.handleDeviation + e; omega)

theorem setUrl_congr {src src' : Mem} {n : Nat} {s : App} (h : ∀ j, j < n → src j = src' j) :
    setUrl src n s = setUrl src' n s := by
  unfold setUrl
  rw [Mem.memcpy_congr _ 0 h]

theorem upgradeUrl_move {q : Mem} {d e : Nat} {s : App} (hd : s.rx.handleDeviation = d)
    (h : ∀ k, 10 ≤ k ∧ k < 10 + sub32 s.rx.currentDataLength 7 →
      (s.move q d e).rx.byteAt k = s.rx.byteAt k) :
    upgradeUrl (s.move q d e) = (upgradeUrl s).move q d e := by
  have hlen : (s.move q d e).rx.currentDataLength = s.rx.currentDataLength := rfl
  have hbytes := move_bytesAt (n := sub32 s.rx.currentDataLength 7) hd fun j hj hj' => h j ⟨hj, hj'⟩
  unfold upgradeUrl
  rw [hlen, setUrl_congr hbytes]
  exact advance_move 8
    (s := (setUrl (s.rx.bytesAt 10) (sub32 s.rx.currentDataLength 7) s).log .httpStartTest)
    (by show d ≤ s.rx.handleDeviation + e; omega)

/-! ## Moving voice -/

/-- The moved frame finds as much voice: it stands where it stood, or the voice is
complete in both places. -/
def SameVoice (n ret ret' d e : Nat) (q : Mem) (s : App) : Prop :=
  ret' = ret ∧ d = e ∨ VoiceWhole n ret s ∧ VoiceWhole n ret' (s.move q d e)

theorem fillFrom_move {q : Mem} {d e k lines : Nat} {s : App} (hd : s.rx.handleDeviation = d)
    (h : ∀ j, k ≤ j → j < k + fillEnd s.play.playDataNum lines →
      (s.move q d e).rx.byteAt j = s.rx.byteAt j) :
    fillFrom (k + (s.move q d e).rx.handleDeviation) lines (s.move q d e) =
      (fillFrom (k + s.rx.handleDeviation) lines s).move q d e := by
  unfold fillFrom
  rw [show fillAudio ((s.move q d e).rx.pRecv.ptr (k + (s.move q d e).rx.handleDeviation)) lines
      (s.move q d e).play = fillAudio (s.rx.pRecv.ptr (k + s.rx.handleDeviation)) lines s.play from
    fillAudio_congr (move_bytesAt hd h)]
  rfl

theorem voiceFrame_move {n ret ret' : Nat} {q : Mem} {d e : Nat} {s : App}
    (hd : s.rx.handleDeviation = d) (hv : SameVoice n ret ret' d e q s)
    (h : ∀ j, n ≤ j → j < n + fillEnd s.play.playDataNum (voiceLines n ret s) →
      (s.move q d e).rx.byteAt j = s.rx.byteAt j) :
    voiceFrame n ret' (s.move q d e) = (voiceFrame n ret s).map (App.move q d e) := by
  by_cases hw : VoiceWhole n ret s
  · have hw' : VoiceWhole n ret' (s.move q d e) := by
      rcases hv with ⟨rfl, rfl⟩ | ⟨-, hw'⟩
      · have hcur : (s.move q d d).rx.handleDeviation = s.rx.handleDeviation := by
          show s.rx.handleDeviation + d - d = _
          omega
        unfold VoiceWhole
        rw [hcur]
        exact hw
      · exact hw'
    rw [voiceLines, if_pos hw] at h
    rw [voiceFrame_whole hw, voiceFrame_whole hw',
      show (s.move q d e).rx.currentDataLength = s.rx.currentDataLength from rfl,
      fillFrom_move hd h]
    refine congrArg Jump.again (advance_move n ?_)
    rw [fillFrom_rx]
    omega
  · obtain ⟨rfl, rfl⟩ : ret' = ret ∧ d = e := hv.resolve_right fun h => hw h.1
    have hcur : (s.move q d d).rx.handleDeviation = s.rx.handleDeviation := by
      show s.rx.handleDeviation + d - d = _
      omega
    have hw' : ¬ VoiceWhole n ret' (s.move q d d) := by
      unfold VoiceWhole
      rw [hcur]
      exact hw
    have hpart : voicePart n ret' (s.move q d d) = voicePart n ret' s := by
      unfold voicePart
      rw [hcur]
    rw [voiceLines, if_neg hw] at h
    rw [voiceFrame_part hw, voiceFrame_part hw', hpart, fillFrom_move hd h]
    rfl

theorem voiceWhole_congr {n ret : Nat} {s t : App}
    (hd : t.rx.handleDeviation = s.rx.handleDeviation)
    (hl : t.rx.currentDataLength = s.rx.currentDataLength) :
    VoiceWhole n ret t ↔ VoiceWhole n ret s := by
  unfold VoiceWhole
  rw [hd, hl]

theorem voiceLines_congr {n ret : Nat} {s t : App}
    (hd : t.rx.handleDeviation = s.rx.handleDeviation)
    (hl : t.rx.currentDataLength = s.rx.currentDataLength) :
    voiceLines n ret t = voiceLines n ret s := by
  unfold voiceLines voicePart
  simp only [voiceWhole_congr hd hl, hd, hl]

theorem SameVoice.congr {n ret ret' d e : Nat} {q : Mem} {s t : App}
    (hd : t.rx.handleDeviation = s.rx.handleDeviation)
    (hl : t.rx.currentDataLength = s.rx.currentDataLength)
    (h : SameVoice n ret ret' d e q s) : SameVoice n ret ret' d e q t := by
  rcases h with h | ⟨h1, h2⟩
  · exact Or.inl h
  · have hmove : (t.move q d e).rx.handleDeviation = (s.move q d e).rx.handleDeviation := by
      show t.rx.handleDeviation + e - d = s.rx.handleDeviation + e - d
      rw [hd]
    have hl' : (t.move q d e).rx.currentDataLength = (s.move q d e).rx.currentDataLength := hl
    exact Or.inr ⟨(voiceWhole_congr hd hl).mpr h1, (voiceWhole_congr hmove hl').mpr h2⟩

theorem broadcastStart_move {q : Mem} {d e : Nat} {s : App}
    (h : s.call.isMailListALL = 0 → (s.move q d e).rx.byteAt 9 = s.rx.byteAt 9) :
    broadcastStart (s.move q d e) = (broadcastStart s).move q d e := by
  unfold broadcastStart
  by_cases hall : s.call.isMailListALL = 0
  · rw [if_pos hall, if_pos (show (s.move q d e).call.isMailListALL = 0 from hall), h hall]
    rfl
  · rw [if_neg hall, if_neg (show ¬ (s.move q d e).call.isMailListALL = 0 from hall)]

theorem broadcastStop_move (q : Mem) (d e : Nat) (s : App) :
    broadcastStop (s.move q d e) = (broadcastStop s).move q d e := by
  unfold broadcastStop
  by_cases hall : s.call.isMailListALL = 1
  · rw [if_pos hall, if_pos (show (s.move q d e).call.isMailListALL = 1 from hall)]
    rfl
  · rw [if_neg hall, if_neg (show ¬ (s.move q d e).call.isMailListALL = 1 from hall)]

theorem broadcastStart_play (s : App) : (broadcastStart s).play = s.play := by
  unfold broadcastStart
  split <;> rfl

theorem broadcastVoice_move {ret ret' : Nat} {q : Mem} {d e : Nat} {s : App}
    (hd : s.rx.handleDeviation = d) (hv : SameVoice 10 ret ret' d e q (setLength 80 s))
    (h : ∀ j, 10 ≤ j → j < 10 + fillEnd s.play.playDataNum (voiceLines 10 ret (setLength 80 s)) →
      (s.move q d e).rx.byteAt j = s.rx.byteAt j) :
    broadcastVoice ret' (s.move q d e) = (broadcastVoice ret s).map (App.move q d e) := by
  have hm := voiceFrame_move (s := setLength 80 s) hd hv h
  unfold broadcastVoice
  rw [show setLength 80 (s.move q d e) = (setLength 80 s).move q d e from rfl, hm]
  cases hj : voiceFrame 10 ret (setLength 80 s) with
  | again u => rfl
  | leave u =>
      have hu : u.rx.handleDeviation = d := (voiceFrame_leave hj).2.1.trans hd
      exact congrArg Jump.again (advance_move 8 (by omega))

theorem broadcastFrame_move {ret ret' : Nat} {q : Mem} {d e : Nat} {s : App}
    (hd : s.rx.handleDeviation = d)
    (hv : s.rx.byteAt 8 = 1 → SameVoice 10 ret ret' d e q (setLength 80 s))
    (h : ∀ k, caseReads ret .instruction34 s k → (s.move q d e).rx.byteAt k = s.rx.byteAt k) :
    broadcastFrame ret' (s.move q d e) = (broadcastFrame ret s).map (App.move q d e) := by
  unfold broadcastFrame
  rw [h 8 (Or.inl rfl), show asVoice (s.move q d e) = (asVoice s).move q d e from rfl]
  by_cases h8 : s.rx.byteAt 8 = 1
  · rw [if_pos h8, if_pos h8,
      broadcastStart_move (s := asVoice s) fun hall => h 9 (Or.inr ⟨h8, Or.inl ⟨hall, rfl⟩⟩)]
    have hrx : (broadcastStart (asVoice s)).rx = (asVoice s).rx := broadcastStart_rx _
    have hplay : (broadcastStart (asVoice s)).play = s.play := broadcastStart_play _
    have hcur : (setLength 80 (broadcastStart (asVoice s))).rx.handleDeviation =
        (setLength 80 s).rx.handleDeviation := by
      show (broadcastStart (asVoice s)).rx.handleDeviation = _
      rw [hrx]
      rfl
    have hlen : (setLength 80 (broadcastStart (asVoice s))).rx.currentDataLength =
        (setLength 80 s).rx.currentDataLength := rfl
    refine broadcastVoice_move (by rw [hrx]; exact hd) ((hv h8).congr hcur hlen) ?_
    · intro j hj hj'
      rw [hplay, voiceLines_congr hcur hlen] at hj'
      have hb := h j (Or.inr ⟨h8, Or.inr ⟨hj, hj'⟩⟩)
      rw [move_byteAt (by rw [hrx]; exact hd), hrx]
      rw [move_byteAt hd] at hb
      exact hb
  · rw [if_neg h8, if_neg h8, broadcastStop_move]
    refine congrArg Jump.again (advance_move 8 ?_)
    rw [broadcastStop_rx]
    show d ≤ s.rx.handleDeviation + e
    omega

/-- **A case only reads what `caseReads` and `absReads` list**, so it does the same
with another buffer and at another place. -/
theorem caseOf_move {ret ret' : Nat} {c : SocketInstruction} {q : Mem} {d e : Nat} {s : App}
    (hd : s.rx.handleDeviation = d)
    (hrel : ∀ k, caseReads ret c s k → (s.move q d e).rx.byteAt k = s.rx.byteAt k)
    (habs : ∀ i, absReads c s i → q i = s.rx.pRecv i)
    (hreset : c = .instruction4 ∧ dialResets s ∨ c = .instruction5 ∧ calledResets s → d = e)
    (h10 : c = .instruction10 → SameVoice 8 ret ret' d e q s)
    (h34 : c = .instruction34 → s.rx.byteAt 8 = 1 →
      SameVoice 10 ret ret' d e q (setLength 80 s)) :
    caseOf ret' c (s.move q d e) = (caseOf ret c s).map (App.move q d e) := by
  cases c with
  | instruction4 =>
      refine congrArg Jump.again ?_
      rw [dial_move (hrel 8 (Or.inl rfl)) (hrel 9 (Or.inr rfl))
        fun hr => hreset (Or.inl ⟨rfl, hr⟩)]
      refine advance_move 8 ?_
      by_cases hr : dialResets s
      · have := hreset (Or.inl ⟨rfl, hr⟩)
        omega
      · rw [dial_rx_of_not hr]
        omega
  | instruction5 =>
      refine congrArg Jump.again ?_
      rw [called_move (fun hall k hk => hrel k ⟨hall, hk⟩)
        (fun hr i hi => habs i ⟨rfl, hr, hi⟩) fun hr => hreset (Or.inr ⟨rfl, hr⟩)]
      refine advance_move 8 ?_
      by_cases hr : calledResets s
      · have := hreset (Or.inr ⟨rfl, hr⟩)
        omega
      · rw [called_rx_of_not hr]
        omega
  | instruction10 => exact voiceFrame_move hd (h10 rfl) fun j hj hj' => hrel j ⟨hj, hj'⟩
  | instruction12 => exact congrArg Jump.again (advance_move 8 (by omega))
  | instruction2 => exact congrArg Jump.again (loginReturn_move hd hrel)
  | instruction21 => exact congrArg Jump.again (hostList_move hd hrel)
  | instruction29 => exact congrArg Jump.again (relayControl_move hd hrel)
  | instruction32 => exact congrArg Jump.again (upgradeUrl_move hd hrel)
  | instruction34 => exact broadcastFrame_move hd (h34 rfl) hrel
  | _ => rfl

/-! ## A pass of the loop -/

/-- The state a case starts in. -/
def opened (c : SocketInstruction) (s : App) : App := (readHeader s).log (.instruction c)

/-- The command of the frame at the cursor, if it has a case. -/
def caseAt (s : App) : Option SocketInstruction :=
  match SocketInstruction.ofCode (cmdAt s) with
  | some c => if c.hasCase then some c else none
  | none => none

theorem caseAt_eq_some {s : App} {c : SocketInstruction} :
    caseAt s = some c ↔ cmdAt s = c.code ∧ c.hasCase = true := by
  unfold caseAt
  constructor
  · intro h
    cases hc : SocketInstruction.ofCode (cmdAt s) with
    | none =>
        rw [hc] at h
        exact nomatch h
    | some c' =>
        rw [hc] at h
        dsimp only at h
        split at h
        · next hcase =>
            obtain rfl := Option.some.inj h
            exact ⟨SocketInstruction.ofCode_eq_some.mp hc, hcase⟩
        · exact nomatch h
  · rintro ⟨hc, hcase⟩
    rw [SocketInstruction.ofCode_eq_some.mpr hc]
    exact if_pos hcase

theorem dispatch_some {ret : Nat} {s : App} {c : SocketInstruction} (h : caseAt s = some c) :
    dispatch ret (readHeader s) = caseOf ret c (opened c s) := by
  obtain ⟨hc, hcase⟩ := caseAt_eq_some.mp h
  exact dispatch_of_case (SocketInstruction.ofCode_eq_some.mpr hc) hcase

theorem dispatch_none {ret : Nat} {s : App} (h : caseAt s = none) :
    dispatch ret (readHeader s) = .leave (readHeader s) := by
  rcases dispatch_cases ret (readHeader s) with ⟨c, hc, hcase, -⟩ | heq
  · rw [caseAt_eq_some.mpr ⟨cmdAt_of_readHeader hc, hcase⟩] at h
    exact nomatch h
  · exact heq

/-- The frame at the cursor reads `pRecv[k + handle_deviation]`: the command and the
length, and what its case reads. -/
def frameReads (ret : Nat) (s : App) (k : Nat) : Prop :=
  5 ≤ k ∧ k ≤ 7 ∨ ∃ c, caseAt s = some c ∧ caseReads ret c (opened c s) k

/-- The frame at the cursor reads `pRecv[i]`, the cursor having been reset. -/
def frameAbsReads (s : App) (i : Nat) : Prop :=
  ∃ c, caseAt s = some c ∧ absReads c (opened c s) i

/-- The voice at the cursor, if there is any. -/
def SameVoiceAt (ret ret' d e : Nat) (q : Mem) (s : App) : Prop :=
  (cmdAt s = SocketInstruction.instruction10.code →
    SameVoice 8 ret ret' d e q (readHeader s)) ∧
  (cmdAt s = SocketInstruction.instruction34.code → s.rx.byteAt 8 = 1 →
    SameVoice 10 ret ret' d e q (setLength 80 s))

/-- **A frame, moved.** -/
theorem dispatch_move {ret ret' : Nat} {q : Mem} {d e : Nat} {s : App} (hh : headerAt s)
    (hd : s.rx.handleDeviation = d)
    (hrel : ∀ k, frameReads ret s k → (s.move q d e).rx.byteAt k = s.rx.byteAt k)
    (habs : ∀ i, frameAbsReads s i → q i = s.rx.pRecv i)
    (hreset : Resets s → d = e) (hv : SameVoiceAt ret ret' d e q s) :
    dispatch ret' (readHeader (s.move q d e)) =
      (dispatch ret (readHeader s)).map (App.move q d e) := by
  have hread : readHeader (s.move q d e) = (readHeader s).move q d e := by
    unfold readHeader
    rw [hrel 5 (Or.inl (by omega)), hrel 6 (Or.inl (by omega)), hrel 7 (Or.inl (by omega))]
    rfl
  have hcase : caseAt (s.move q d e) = caseAt s := by
    unfold caseAt cmdAt
    rw [hrel 5 (Or.inl (by omega))]
  cases hc : caseAt s with
  | none =>
      rw [dispatch_none hc, dispatch_none (hcase.trans hc), hread]
      rfl
  | some c =>
      have hcmd := (caseAt_eq_some.mp hc).1
      rw [dispatch_some hc, dispatch_some (hcase.trans hc)]
      unfold opened
      rw [hread]
      refine caseOf_move (s := opened c s) hd (fun k hk => hrel k (Or.inr ⟨c, hc, hk⟩))
        (fun i hi => habs i ⟨c, hc, hi⟩) ?_ ?_ ?_
      · rintro (⟨rfl, hr⟩ | ⟨rfl, hr⟩)
        · exact hreset ⟨hh, Or.inl ⟨hcmd, hr⟩⟩
        · exact hreset ⟨hh, Or.inr ⟨hcmd, hr⟩⟩
      · rintro rfl
        exact hv.1 hcmd
      · rintro rfl h8
        exact hv.2 hcmd h8

/-! ## Frames inside what was received -/

/-- The bytes from the cursor on that the frame there must have, besides voice: the
header, and the fields of its command. -/
def frameNeeds (s : App) : Nat :=
  match caseAt s with
  | some .instruction4 => 10
  | some .instruction5 => if s.call.isMailListALL = 0 then 10 else 8
  | some .instruction2 => 12
  | some .instruction21 => hostEnd s
  | some .instruction29 => 26
  | some .instruction32 => if lenAt s = 7 then 8 else 10 + sub32 (lenAt s) 7
  | some .instruction34 => if s.rx.byteAt 8 = 1 then 10 else 9
  | _ => 8

/-- The fields of the frame at the cursor are among the `ret` received bytes, and
where it brings voice the ring has not been overrun before. -/
structure FrameInside (ret : Nat) (s : App) : Prop where
  fields : s.rx.handleDeviation + frameNeeds s ≤ ret
  answer : cmdAt s = SocketInstruction.instruction5.code → calledResets s → 25 ≤ ret
  voice : cmdAt s = SocketInstruction.instruction10.code →
    RingOk s.play.playDataNum (voiceLines 8 ret (readHeader s))
  broadcast : cmdAt s = SocketInstruction.instruction34.code → s.rx.byteAt 8 = 1 →
    RingOk s.play.playDataNum (voiceLines 10 ret (setLength 80 s))

/-- The frame at the cursor reads nothing at or beyond `ret`. -/
def ReadsInside (ret : Nat) (s : App) : Prop :=
  (∀ k, frameReads ret s k → k + s.rx.handleDeviation < ret) ∧ ∀ i, frameAbsReads s i → i < ret

theorem hostEnd_bounds (s : App) : 24 ≤ hostEnd s ∧ hostEnd s ≤ 55 := by
  unfold hostEnd
  split
  · split <;> omega
  · omega

theorem eight_le_frameNeeds (s : App) : 8 ≤ frameNeeds s := by
  have := hostEnd_bounds s
  unfold frameNeeds
  split <;> first | omega | (split <;> omega)

theorem voiceLines_inside {n ret : Nat} {s : App} (hlen : s.rx.currentDataLength ≤ 65535)
    (hn : n ≤ 10) (hd : s.rx.handleDeviation < ret) (hret : ret < 65536)
    (h : n + s.rx.handleDeviation ≤ ret) :
    n + s.rx.handleDeviation + voiceLines n ret s ≤ ret := by
  unfold voiceLines
  split
  · next hw =>
      rw [VoiceWhole, le_sub32_iff hlen hn hd hret] at hw
      omega
  · rw [voicePart, sub32_rest h]
    omega

/-- With the header itself cut off, the test of the loop takes the voice for complete. -/
theorem voiceLines_outside {n ret : Nat} {s : App} (hlen : s.rx.currentDataLength ≤ 65535)
    (hn : n ≤ 10) (hd : s.rx.handleDeviation < ret) (hret : ret < 65536)
    (h : ret < n + s.rx.handleDeviation) : voiceLines n ret s = s.rx.currentDataLength :=
  if_pos ((le_sub32_iff hlen hn hd hret).mpr (Or.inr h))

/-- The reads of the frame at the cursor end below any bound that its fields and its
voice end below. -/
theorem frameReads_lt_of {ret bound : Nat} {s : App}
    (hf : s.rx.handleDeviation + frameNeeds s ≤ bound)
    (hv : cmdAt s = SocketInstruction.instruction10.code →
      8 + s.rx.handleDeviation +
        fillEnd s.play.playDataNum (voiceLines 8 ret (readHeader s)) ≤ bound)
    (hb : cmdAt s = SocketInstruction.instruction34.code → s.rx.byteAt 8 = 1 →
      10 + s.rx.handleDeviation +
        fillEnd s.play.playDataNum (voiceLines 10 ret (setLength 80 s)) ≤ bound)
    {k : Nat} (hk : frameReads ret s k) : k + s.rx.handleDeviation < bound := by
  have h8 := eight_le_frameNeeds s
  rcases hk with hk | ⟨c, hc, hk⟩
  · omega
  · have hcmd := (caseAt_eq_some.mp hc).1
    unfold frameNeeds at hf
    rw [hc] at hf
    cases c with
    | instruction4 =>
        have hk : k = 8 ∨ k = 9 := hk
        dsimp only at hf
        omega
    | instruction5 =>
        obtain ⟨hall, hk⟩ := hk
        rw [show (opened .instruction5 s).call = s.call from rfl] at hall
        dsimp only at hf
        rw [if_pos hall] at hf
        omega
    | instruction10 =>
        obtain ⟨hk, hk'⟩ := hk
        have hend := hv hcmd
        have hk' : k < 8 + fillEnd s.play.playDataNum (voiceLines 8 ret (readHeader s)) := hk'
        omega
    | instruction2 =>
        obtain ⟨hk, hk'⟩ := hk
        dsimp only at hf
        omega
    | instruction21 =>
        obtain ⟨hk, hk'⟩ := hk
        dsimp only at hf
        rw [show hostEnd (opened .instruction21 s) = hostEnd s from rfl] at hk'
        omega
    | instruction29 =>
        obtain ⟨hk, hk'⟩ := hk
        dsimp only at hf
        omega
    | instruction32 =>
        obtain ⟨hk, hk'⟩ := hk
        dsimp only at hf
        rw [show (opened .instruction32 s).rx.currentDataLength = lenAt s from rfl] at hk'
        split at hf
        · next h7 =>
            rw [h7] at hk'
            simp [sub32] at hk'
            omega
        · omega
    | instruction34 =>
        dsimp only at hf
        rcases hk with rfl | ⟨h8, hk⟩
        · split at hf <;> omega
        · have h8 : s.rx.byteAt 8 = 1 := h8
          rw [if_pos h8] at hf
          rcases hk with ⟨-, rfl⟩ | ⟨hk, hk'⟩
          · omega
          · have hend := hb hcmd h8
            have hk' : k < 10 + fillEnd s.play.playDataNum (voiceLines 10 ret (setLength 80 s)) :=
              hk'
            omega
    | _ => exact hk.elim

/-- Inside the received bytes, voice ends there, too. -/
theorem FrameInside.voice_le {ret : Nat} {s : App} (h : FrameInside ret s) (hret : ret < 65536)
    (hd : s.rx.handleDeviation < ret) (hcmd : cmdAt s = SocketInstruction.instruction10.code) :
    8 + s.rx.handleDeviation +
      fillEnd s.play.playDataNum (voiceLines 8 ret (readHeader s)) ≤ ret := by
  have hf := h.fields
  have h8 := eight_le_frameNeeds s
  have hring := h.voice hcmd
  have hin : 8 + (readHeader s).rx.handleDeviation + voiceLines 8 ret (readHeader s) ≤ ret :=
    voiceLines_inside (lenAt_le s) (by decide) hd hret
      (by show 8 + s.rx.handleDeviation ≤ ret; omega)
  have hin : 8 + s.rx.handleDeviation + voiceLines 8 ret (readHeader s) ≤ ret := hin
  unfold RingOk at hring
  omega

theorem FrameInside.broadcast_le {ret : Nat} {s : App} (h : FrameInside ret s)
    (hret : ret < 65536) (hd : s.rx.handleDeviation < ret)
    (hcmd : cmdAt s = SocketInstruction.instruction34.code) (h8 : s.rx.byteAt 8 = 1) :
    10 + s.rx.handleDeviation +
      fillEnd s.play.playDataNum (voiceLines 10 ret (setLength 80 s)) ≤ ret := by
  have hf := h.fields
  have hring := h.broadcast hcmd h8
  have hneeds : frameNeeds s = 10 := by
    rw [frameNeeds, caseAt_eq_some.mpr ⟨hcmd, rfl⟩]
    exact if_pos h8
  have hin : 10 + (setLength 80 s).rx.handleDeviation + voiceLines 10 ret (setLength 80 s) ≤ ret :=
    voiceLines_inside (by decide : 80 ≤ 65535) (by decide) hd hret
      (by show 10 + s.rx.handleDeviation ≤ ret; omega)
  have hin : 10 + s.rx.handleDeviation + voiceLines 10 ret (setLength 80 s) ≤ ret := hin
  unfold RingOk at hring
  omega

/-- The reads of the frame at the cursor, told by `frameNeeds`. -/
theorem frameReads_lt {ret : Nat} {s : App} (hret : ret < 65536)
    (hd : s.rx.handleDeviation < ret) (h : FrameInside ret s) {k : Nat}
    (hk : frameReads ret s k) : k + s.rx.handleDeviation < ret :=
  frameReads_lt_of h.fields (h.voice_le hret hd) (h.broadcast_le hret hd) hk

theorem frameAbsReads_lt {ret : Nat} {s : App} (h : FrameInside ret s) {i : Nat}
    (hi : frameAbsReads s i) : i < ret := by
  obtain ⟨c, hc, rfl, hr, hi⟩ := hi
  have := h.answer (caseAt_eq_some.mp hc).1 hr
  omega

/-- A byte the case reads is inside. -/
theorem ReadsInside.of_case {ret k : Nat} {c : SocketInstruction} {s : App}
    (h : ReadsInside ret s) (hc : caseAt s = some c) (hk : caseReads ret c (opened c s) k) :
    k + s.rx.handleDeviation < ret :=
  h.1 _ (Or.inr ⟨_, hc, hk⟩)

/-- Then it has the fields its case reads. -/
theorem ReadsInside.fields {ret : Nat} {s : App} (hret : ret < 65536)
    (hd : s.rx.handleDeviation < ret) (h : ReadsInside ret s) :
    s.rx.handleDeviation + frameNeeds s ≤ ret := by
  have h7 := h.1 7 (Or.inl (by omega))
  cases hc : caseAt s with
  | none =>
      rw [frameNeeds, hc]
      dsimp only
      omega
  | some c =>
      rw [frameNeeds, hc]
      cases c with
      | instruction4 =>
          have := h.of_case (k := 9) hc (Or.inr rfl)
          dsimp only
          omega
      | instruction5 =>
          dsimp only
          split
          · next hall =>
              have := h.of_case (k := 9) hc ⟨hall, Or.inr rfl⟩
              omega
          · omega
      | instruction2 =>
          have := h.of_case (k := 11) hc ⟨by omega, by omega⟩
          dsimp only
          omega
      | instruction21 =>
          have hb := hostEnd_bounds s
          have := h.of_case (k := hostEnd s - 1) hc
            ⟨by omega, by show hostEnd s - 1 < hostEnd s; omega⟩
          dsimp only
          omega
      | instruction29 =>
          have := h.of_case (k := 25) hc ⟨by omega, by omega⟩
          dsimp only
          omega
      | instruction32 =>
          dsimp only
          split
          · omega
          · next h7' =>
              have hl := lenAt_le s
              have hpos : 0 < sub32 (lenAt s) 7 := by
                unfold sub32
                split <;> omega
              have := h.of_case (k := 10 + sub32 (lenAt s) 7 - 1) hc ⟨by omega, by
                show 10 + sub32 (lenAt s) 7 - 1 < 10 + sub32 (lenAt s) 7
                omega⟩
              omega
      | instruction34 =>
          have h8' := h.of_case (k := 8) hc (Or.inl rfl)
          dsimp only
          split
          · next h8 =>
              -- one byte short, the voice is taken for complete and read
              by_contra hlt
              have hl : voiceLines 10 ret (setLength 80 s) = 80 :=
                voiceLines_outside (by decide : 80 ≤ 65535) (by decide) hd hret
                  (by show ret < 10 + s.rx.handleDeviation; omega)
              have hfill : 80 ≤ fillEnd s.play.playDataNum 80 := le_fillEnd (by decide)
              have := h.of_case (k := 10) hc (Or.inr ⟨h8, Or.inr ⟨by omega, by
                show 10 < 10 + fillEnd s.play.playDataNum (voiceLines 10 ret (setLength 80 s))
                rw [hl]
                omega⟩⟩)
              omega
          · omega
      | _ =>
          dsimp only
          omega

/-- **What a frame must have is what it reads.** -/
theorem readsInside_iff {ret : Nat} {s : App} (hret : ret < 65536)
    (hd : s.rx.handleDeviation < ret) : ReadsInside ret s ↔ FrameInside ret s := by
  constructor
  · intro h
    refine ⟨h.fields hret hd, ?_, ?_, ?_⟩
    · intro hcmd hr
      have hc := caseAt_eq_some.mpr ⟨hcmd, rfl⟩
      have := h.2 24 ⟨_, hc, rfl, hr, Or.inr ⟨by omega, by omega⟩⟩
      omega
    · intro hcmd
      have hc := caseAt_eq_some.mpr ⟨hcmd, rfl⟩
      refine (fillEnd_cases _ _).resolve_right fun hbig => ?_
      have := h.of_case (k := 8 + 65536) hc ⟨by omega, by
        show 8 + 65536 < 8 + fillEnd s.play.playDataNum (voiceLines 8 ret (readHeader s))
        omega⟩
      omega
    · intro hcmd h8
      have hc := caseAt_eq_some.mpr ⟨hcmd, rfl⟩
      refine (fillEnd_cases _ _).resolve_right fun hbig => ?_
      have := h.of_case (k := 10 + 65536) hc (Or.inr ⟨h8, Or.inr ⟨by omega, by
        show 10 + 65536 < 10 + fillEnd s.play.playDataNum (voiceLines 10 ret (setLength 80 s))
        omega⟩⟩)
      omega
  · exact fun h => ⟨fun k hk => frameReads_lt hret hd h hk, fun i hi => frameAbsReads_lt h hi⟩

end IntercomSalve
