/-
# `SendRing` — the ring of recorded voice, and which packet message 125 sends

`AudioRecordCb` writes a packet at `audio_data_num` and counts it in `audio_data_en`;
message 125 sends a packet from `audio_data_num_send` and counts it off.  The write
position and the count are reset by `MSG_EVT_HMI_NEWS`, the read position by whatever
accepts, answers, times out or clears, at another moment.

Since the write position is reset together with what is recorded, the `k`-th packet since
`MSG_EVT_HMI_NEWS` always stands `80 * k` bytes into the ring (`SendOk`), whatever happens
to the read position.  So a packet is the oldest one not yet sent if it is sent while the
write position is `audio_data_en` packets ahead of the read position, and the ring has not
been overrun (`sendRing_oldest`).
-/
import IntercomSalve.Codec
import IntercomSalve.Framing

namespace IntercomSalve

/-! ## Recording a frame -/

/-- The device is in a call and connected: `AudioRecordCb` records. -/
structure Recording (s : App) : Prop where
  single : s.call.isMailListALL = 0
  connected : s.link.socketFd ≠ -1
  inCall : s.call.callUserOperation ≠ 0

/-- The packet of a frame of 320 bytes. -/
def packetOf (buff : Mem) (st : Adpcm) : List UInt8 := (encodeBytes (samplePairs buff 0 80) st).1

theorem length_packetOf (buff : Mem) (st : Adpcm) : (packetOf buff st).length = 80 := by
  rw [packetOf, length_encodeBytes]
  simp [samplePairs]

/-- `AudioRecordCb` with a frame of 320 bytes. -/
theorem audioRecordCb_frame {s : App} (h : Recording s) (buff : Mem) :
    audioRecordCb buff 320 s =
      App.postSocket .msg125 { s with
        record.audioData := s.record.audioData.memcpy s.record.audioDataNum
          (Mem.ofList (packetOf buff s.encode)) 80
        record.audioDataNum := Mem.ringWrap audioDataMax (s.record.audioDataNum + 80)
        record.audioDataEn := s.record.audioDataEn + 1
        encode := (encodeBytes (samplePairs buff 0 80) s.encode).2 } := by
  have hloop : recordLoop buff s.record.audioDataNum (320 / 2) 0 0 s.record.audioData s.encode =
      (s.record.audioData.memcpy s.record.audioDataNum (Mem.ofList (packetOf buff s.encode)) 80,
        (encodeBytes (samplePairs buff 0 80) s.encode).2) :=
    recordLoop_eq buff s.record.audioDataNum 80 0 s.record.audioData s.encode
  have hoff : ¬ (s.link.socketFd = -1 ∨ (s.call.callUserOperation = 0 ∧
      s.call.isMailListALL = 0)) := by
    rintro (h' | h')
    · exact h.connected h'
    · exact h.inCall h'.1
  unfold audioRecordCb
  rw [if_neg (not_not.mpr h.single), if_neg hoff]
  dsimp only
  rw [hloop]
  rfl

/-! ## What is recorded, and what is sent -/

/-- The packets recorded since the last `MSG_EVT_HMI_NEWS`, and how many packets have been
sent since. -/
structure SendHistory where
  packets : List (List UInt8)
  sent : Nat

/-- The packet of the frame that the step records. -/
def recordedPacket (e : Run.Step Act Sys) : List UInt8 :=
  match e.act with
  | .audioRecordCb buff _ => packetOf buff e.pre.app.encode
  | _ => []

/-- A step, observed. -/
def SendHistory.after (h : SendHistory) (e : Run.Step Act Sys) : SendHistory :=
  match eventOf e.act e.pre with
  | .recorded _ => { h with packets := h.packets ++ [recordedPacket e] }
  | .talk => ⟨[], 0⟩
  | .voiceSent => { h with sent := h.sent + 1 }
  | _ => h

/-- The history of a run. -/
def sendHistory (l : List (Run.Step Act Sys)) : SendHistory := l.foldl SendHistory.after ⟨[], 0⟩

/-- A packet that the step sends is the oldest one not yet sent: the first one sent since
`MSG_EVT_HMI_NEWS` is the first one recorded since, and so on. -/
def SendsOldest (h : SendHistory) (e : Run.Step Act Sys) : Prop :=
  eventOf e.act e.pre = .voiceSent →
    ∃ packet, h.packets[h.sent]? = some packet ∧
      e.post.app.sent = e.pre.app.sent ++
        ([0xAA, 0xFA, 0x00, 0x00, 0x01, 0x09, 0x00, 0x50] ++ packet)

/-- The write position is `audio_data_en` packets ahead of the read position, and no more
than the ring holds. -/
def InStep (r : Record) : Prop :=
  r.audioDataNum = (r.audioDataNumSend + 80 * r.audioDataEn) % audioDataMax ∧
    80 * r.audioDataEn ≤ audioDataMax

instance (r : Record) : Decidable (InStep r) := by unfold InStep; infer_instance

/-- Where the packets stand. -/
structure SendOk (h : SendHistory) (r : Record) : Prop where
  num : r.audioDataNum = 80 * h.packets.length % audioDataMax
  en : h.sent + r.audioDataEn = h.packets.length
  send : r.audioDataNumSend < audioDataMax
  stored : ∀ k packet, h.packets[k]? = some packet → 80 * (h.packets.length - k) ≤ audioDataMax →
    r.audioData.slice (80 * k % audioDataMax) 80 = packet

/-- What does not touch the ring leaves the packets where they are. -/
theorem SendOk.congr {h : SendHistory} {r r' : Record} (hr : SendOk h r)
    (hdata : r'.audioData = r.audioData) (hnum : r'.audioDataNum = r.audioDataNum)
    (hen : r'.audioDataEn = r.audioDataEn) (hsend : r'.audioDataNumSend < audioDataMax) :
    SendOk h r' := by
  refine ⟨hnum.trans hr.num, ?_, hsend, ?_⟩
  · rw [hen]
    exact hr.en
  · rw [hdata]
    exact hr.stored

/-- Positions of two packets of which neither has overwritten the other. -/
theorem packets_apart {j k n : Nat} (hj : j < k) (hk : 80 * (k + 1 - j) ≤ audioDataMax)
    (hn : n < 80) :
    80 * j % audioDataMax + n < 80 * k % audioDataMax ∨
      80 * k % audioDataMax + 80 ≤ 80 * j % audioDataMax + n := by
  unfold audioDataMax at *
  omega

/-- **Recording** appends a packet. -/
theorem SendOk.recorded {h : SendHistory} {s : App} (hs : SendOk h s.record) (hrec : Recording s)
    (buff : Mem) :
    SendOk { h with packets := h.packets ++ [packetOf buff s.encode] }
      (audioRecordCb buff 320 s).record := by
  have hlen : (h.packets ++ [packetOf buff s.encode]).length = h.packets.length + 1 := by
    rw [List.length_append, List.length_singleton]
  have hnum := hs.num
  rw [audioRecordCb_frame hrec]
  refine ⟨?_, ?_, hs.send, ?_⟩
  · rw [hlen]
    show Mem.ringWrap audioDataMax (s.record.audioDataNum + 80) =
      80 * (h.packets.length + 1) % audioDataMax
    rw [hnum]
    unfold Mem.ringWrap audioDataMax
    split <;> omega
  · have hen := hs.en
    rw [hlen]
    show h.sent + (s.record.audioDataEn + 1) = h.packets.length + 1
    omega
  · intro k packet hk hroom
    show (s.record.audioData.memcpy s.record.audioDataNum
      (Mem.ofList (packetOf buff s.encode)) 80).slice (80 * k % audioDataMax) 80 = packet
    rw [hlen] at hroom
    rcases Nat.lt_or_ge k h.packets.length with hlt | hge
    · -- an earlier packet: what is written now does not reach it
      rw [List.getElem?_append_left hlt] at hk
      have hold := hs.stored k packet hk (by omega)
      rw [← hold]
      refine Mem.slice_congr fun n hn => if_neg ?_
      have hapart := packets_apart hlt (by omega) hn
      rw [hnum]
      omega
    · -- the packet itself
      obtain ⟨hkeq, rfl⟩ := Mem.eq_of_getElem?_concat hk hge
      have hbytes := Mem.slice_ofList (packetOf buff s.encode)
      rw [length_packetOf] at hbytes
      rw [hkeq, ← hnum, Mem.slice_memcpy, hbytes]

/-- The read position moves on inside the ring. -/
theorem recordWrap_lt {n : Nat} (h : n < audioDataMax) :
    recordWrap (n + audioDataEnMax) < audioDataMax := by
  unfold recordWrap audioDataEnMax audioDataMax at *
  split <;> omega

theorem Event.after_send_lt (e : Event) {s : Session} (h : s.audioDataNumSend < audioDataMax) :
    (e.after s).audioDataNumSend < audioDataMax := by
  cases e with
  | accepted | answered | timedOut | idleHeartbeat => exact (by decide : 0 < audioDataMax)
  | voiceSent => exact recordWrap_lt h
  | _ => exact h

/-- In step, the packet at the read position is the oldest one not yet sent. -/
theorem SendOk.oldest {h : SendHistory} {r : Record} (hr : SendOk h r) (hen : r.audioDataEn ≠ 0)
    (hstep : InStep r) :
    h.packets[h.sent]? = some ((r.audioData.ptr r.audioDataNumSend).slice 0 audioDataEnMax) := by
  have hnum := hr.num
  have hcount := hr.en
  have hsend := hr.send
  obtain ⟨hahead, hroom⟩ := hstep
  have hlt : h.sent < h.packets.length := by omega
  have hpos : 80 * h.sent % audioDataMax = r.audioDataNumSend := by
    rw [hahead] at hnum
    unfold audioDataMax at *
    omega
  have hstored := hr.stored h.sent _ (List.getElem?_eq_getElem hlt) (by omega)
  have hslice : (r.audioData.ptr r.audioDataNumSend).slice 0 audioDataEnMax =
      r.audioData.slice r.audioDataNumSend 80 :=
    Mem.slice_congr fun n _ => by rw [Mem.ptr_apply, Nat.zero_add]
  rw [List.getElem?_eq_getElem hlt, ← hstored, hpos, hslice]

/-! ## Steps -/

/-- Only `AudioRecordCb` writes the ring. -/
theorem Steps.audioData_eq {x y : Sys} {a : Act} (h : Steps x a y) (hx : HandleOk x.app)
    (ha : ∀ buff len, a ≠ .audioRecordCb buff len) :
    y.app.record.audioData = x.app.record.audioData := by
  have hw : y.app.wires.audioData = (wiresAfter a x).audioData := by rw [h.wires_eq hx]
  have hafter : ∀ (e : Effect) (w : Wires), (e.after w).audioData = w.audioData := by
    intro e w
    unfold Effect.after
    split <;> rfl
  refine hw.trans ?_
  cases a with
  | isCmd => exact hafter _ _
  | socket io => exact hafter _ _
  | audio io =>
      simp only [wiresAfter]
      split
      · next m ms hm => cases m <;> rfl
      · rfl
  | audioRecordCb buff len => exact absurd rfl (ha buff len)
  | _ => rfl

/-- `AudioRecordCb` records, or leaves the ring alone. -/
theorem recordEvent_cases (buff : Mem) (len : Nat) (s : App) :
    (recordEvent len s = .recorded len ∧ Recording s) ∨
      (recordEvent len s = .nothing ∨ recordEvent len s = .deviceOff) ∧
        (audioRecordCb buff len s).record = s.record := by
  unfold recordEvent audioRecordCb
  by_cases hall : s.call.isMailListALL ≠ 0
  · rw [if_pos hall, if_pos hall]
    exact Or.inr ⟨Or.inl rfl, rfl⟩
  · rw [if_neg hall, if_neg hall]
    have h0 : s.call.isMailListALL = 0 := not_not.mp hall
    by_cases hoff : s.link.socketFd = -1 ∨ s.call.callUserOperation = 0
    · rw [if_pos hoff, if_pos (hoff.imp_right fun h => ⟨h, h0⟩)]
      refine Or.inr ⟨Or.inr rfl, ?_⟩
      unfold audioStopV2
      split <;> rfl
    · rw [if_neg hoff]
      exact Or.inl ⟨rfl, h0, fun h => hoff (Or.inl h), fun h => hoff (Or.inr h)⟩

/-- The frames of the microphone have 320 bytes. -/
def WholeFrame (e : Run.Step Act Sys) : Prop :=
  ∀ buff len, e.act = .audioRecordCb buff len → len = 320

/-- The test of that. -/
def Act.wholeFrame : Act → Bool
  | .audioRecordCb _ len => len == 320
  | _ => true

theorem wholeFrame_of_test {e : Run.Step Act Sys} (h : e.act.wholeFrame = true) : WholeFrame e := by
  intro buff len ha
  rw [ha] at h
  exact eq_of_beq h

theorem sendHistory_snoc (l : List (Run.Step Act Sys)) (e : Run.Step Act Sys) :
    sendHistory (l ++ [e]) = (sendHistory l).after e := by
  simp [sendHistory]

/-- A frame is recorded by `AudioRecordCb`. -/
theorem EventFrom.recorded {x : Sys} {a : Act} {len : Nat} (h : EventFrom x a (.recorded len)) :
    ∃ buff, a = .audioRecordCb buff len ∧ Recording x.app := by
  generalize he : Event.recorded len = e at h
  cases h with
  | nothing => exact nomatch he
  | @frame c hc =>
      have hf := frameEvent_is c x.app
      rw [← he] at hf
      exact nomatch hf
  | message hm =>
      unfold messageEvent at he
      repeat' split at he
      all_goals exact nomatch he
  | audio hm =>
      unfold audioEvent at he
      repeat' split at he
      all_goals exact nomatch he
  | prompt hm =>
      unfold promptEvent at he
      repeat' split at he
      all_goals exact nomatch he
  | @record buff n =>
      rcases recordEvent_cases buff n x.app with ⟨hrec, hin⟩ | ⟨hnot | hnot, -⟩
      · rw [hrec] at he
        obtain rfl := Event.recorded.inj he
        exact ⟨buff, rfl, hin⟩
      · exact nomatch he.trans hnot
      · exact nomatch he.trans hnot

/-- What is not recorded does not touch the ring. -/
theorem Steps.audioData_of_event {x y : Sys} {a : Act} (h : Steps x a y) (hx : HandleOk x.app)
    (hev : ∀ len, eventOf a x ≠ .recorded len) :
    y.app.record.audioData = x.app.record.audioData := by
  by_cases ha : ∃ buff len, a = .audioRecordCb buff len
  · obtain ⟨buff, len, rfl⟩ := ha
    cases h with
    | audioRecordCb =>
        rcases recordEvent_cases buff len _ with ⟨hrec, -⟩ | ⟨-, hsame⟩
        · exact absurd hrec (hev len)
        · exact congrArg Record.audioData hsame
  · exact h.audioData_eq hx fun buff len heq => ha ⟨buff, len, heq⟩

/-- A packet is sent by message 125, while there is one. -/
theorem EventFrom.voiceSent {x : Sys} {a : Act} (h : EventFrom x a .voiceSent) :
    (∃ io ms, a = .socket io ∧ x.app.socketMsgs = .msg125 :: ms) ∧
      x.app.record.audioDataEn ≠ 0 := by
  generalize he : Event.voiceSent = e at h
  cases h with
  | nothing => exact nomatch he
  | @frame c hc =>
      have hf := frameEvent_is c x.app
      rw [← he] at hf
      exact nomatch hf
  | @message io m ms hm =>
      cases m with
      | msg125 =>
          refine ⟨⟨io, ms, rfl, hm⟩, fun h0 => ?_⟩
          exact nomatch he.trans (if_pos h0)
      | msg124 | msg126 | msg133 =>
          unfold messageEvent at he
          dsimp only at he
          split at he <;> exact nomatch he
      | _ => exact nomatch he
  | audio hm =>
      unfold audioEvent at he
      repeat' split at he
      all_goals exact nomatch he
  | prompt hm =>
      unfold promptEvent at he
      repeat' split at he
      all_goals exact nomatch he
  | @record buff n =>
      rcases recordEvent_cases buff n x.app with ⟨hrec, -⟩ | ⟨hnot | hnot, -⟩
      · exact nomatch he.trans hrec
      · exact nomatch he.trans hnot
      · exact nomatch he.trans hnot

/-- **A step keeps the packets where they are.** -/
theorem SendOk.step {h : SendHistory} {x y : Sys} {a : Act} (hs : SendOk h x.app.record)
    (hx : HandleOk x.app) (hstep : Steps x a y) (hframe : WholeFrame ⟨x, a, y⟩) :
    SendOk (h.after ⟨x, a, y⟩) y.app.record := by
  have hsession := hstep.session_eq
  have hdata := hstep.audioData_of_event hx
  have hfrom := eventOf_from a x
  unfold SendHistory.after
  dsimp only
  generalize eventOf a x = ev at hsession hdata hfrom ⊢
  have hnum : y.app.record.audioDataNum = (ev.after x.app.session).audioDataNum :=
    congrArg Session.audioDataNum hsession
  have hen : y.app.record.audioDataEn = (ev.after x.app.session).audioDataEn :=
    congrArg Session.audioDataEn hsession
  have hsend : y.app.record.audioDataNumSend < audioDataMax := by
    have hlt := ev.after_send_lt (s := x.app.session) hs.send
    rwa [← hsession] at hlt
  cases ev with
  | recorded len =>
      obtain ⟨buff, rfl, hin⟩ := hfrom.recorded
      obtain rfl := hframe buff len rfl
      cases hstep with
      | audioRecordCb => exact hs.recorded hin buff
  | talk =>
      refine ⟨hnum, by rw [hen]; rfl, hsend, ?_⟩
      intro k packet hk
      exact nomatch hk
  | voiceSent =>
      have hne := hfrom.voiceSent.2
      have hcount := hs.en
      have hen : y.app.record.audioDataEn = x.app.record.audioDataEn - 1 := hen
      refine ⟨hnum.trans hs.num, ?_, hsend, ?_⟩
      · show h.sent + 1 + y.app.record.audioDataEn = h.packets.length
        omega
      · rw [hdata (by simp)]
        exact hs.stored
  | _ => exact hs.congr (hdata (by simp)) hnum hen hsend

/-! ## Runs -/

/-- All along a run of whole frames the packets stand where they should. -/
theorem sendOk_of_run {l : List (Run.Step Act Sys)} {y : Sys} (hr : Run.Runs exec Sys.init l y)
    (hframes : ∀ e ∈ l, WholeFrame e) : SendOk (sendHistory l) y.app.record := by
  induction hr with
  | nil =>
      refine ⟨rfl, rfl, by decide, ?_⟩
      intro k packet hk
      exact nomatch hk
  | @snoc l y z a hr he ih =>
      have hy : Reachable y := ⟨l, hr⟩
      rw [sendHistory_snoc]
      exact (ih fun e hm => hframes e (List.mem_append_left _ hm)).step hy.handleOk
        (exec_eq_some.mp he) (hframes _ (by simp))

/-- Message 125 sends the packet at the read position. -/
theorem Steps.packet_sent {x y : Sys} {a : Act} (h : Steps x a y) (hx : HandleOk x.app)
    (hev : eventOf a x = .voiceSent) :
    y.app.sent = x.app.sent ++ ([0xAA, 0xFA, 0x00, 0x00, 0x01, 0x09, 0x00, 0x50] ++
      (x.app.record.audioData.ptr x.app.record.audioDataNumSend).slice 0 audioDataEnMax) := by
  have hfrom := eventOf_from a x
  rw [hev] at hfrom
  obtain ⟨⟨io, ms, rfl, hm⟩, hen⟩ := hfrom.voiceSent
  have hframes : (effectOf (.socket io) x).frames = [packetFrame x.app.record] := by
    simp only [effectOf, hm, messageEffect, messageFrames]
    exact if_neg hen
  rw [h.sent_eq hx, hframes]
  simp [Frame.bytes, packetFrame, Frame.own, SocketInstruction.code, audioDataEnMax]

/-- **The ring of recorded voice.**  In a run from power-on with whole frames, in which
every packet is sent in step, every packet sent is the oldest one recorded since the last
`MSG_EVT_HMI_NEWS` that has not been sent, and none is sent twice. -/
theorem sendRing_oldest {l : List (Run.Step Act Sys)} {y : Sys} (hr : Run.Runs exec Sys.init l y)
    (hframes : ∀ e ∈ l, WholeFrame e)
    (hstep : ∀ e ∈ l, eventOf e.act e.pre = .voiceSent → InStep e.pre.app.record) :
    ∀ l₁ e l₂, l = l₁ ++ e :: l₂ → SendsOldest (sendHistory l₁) e := by
  intro l₁ e l₂ hl hev
  obtain ⟨hpre, hexec⟩ := hr.before hl
  have hmem : ∀ d ∈ l₁, d ∈ l := fun d hd => by simp [hl, hd]
  have hok := sendOk_of_run hpre fun d hd => hframes d (hmem d hd)
  have hfrom := eventOf_from e.act e.pre
  rw [hev] at hfrom
  have hy : Reachable e.pre := ⟨l₁, hpre⟩
  exact ⟨_, hok.oldest hfrom.voiceSent.2 (hstep e (by simp [hl]) hev),
    (exec_eq_some.mp hexec).packet_sent hy.handleOk hev⟩

/-! ## Two runs -/

/-- A platform that connects. -/
def Platform.connects : Platform := { Platform.silent with socketFd := some 1 }

/-- Our call is accepted. -/
def acceptedFrame : List UInt8 := [0xAA, 0xFA, 0x00, 0x00, 0x01, 0x04, 0x00, 0x02, 0x31, 0x32]

/-- A call is accepted, the voice device starts, and two frames are recorded and sent. -/
theorem acceptedCall_oldest :
    ∃ l y, Run.Runs exec Sys.init l y ∧ y.app.sent.length = 2 * 88 ∧
      ∀ l₁ e l₂, l = l₁ ++ e :: l₂ → SendsOldest (sendHistory l₁) e := by
  obtain ⟨l, y, hr, hlen, hall⟩ := Runs.of_acts_all (l := [.socket Platform.connects,
    .socketEvent (.readInd 10), .recv acceptedFrame, .isCmd, .isCmd, .isCmd, .isCmd,
    .mp3 Platform.silent, .audio Platform.silent, .audio Platform.silent,
    .audioRecordCb (fun _ => 0) 320, .audioRecordCb (fun _ => 0x40) 320,
    .socket Platform.silent, .socket Platform.silent])
    (p := fun e => e.act.wholeFrame &&
      decide (eventOf e.act e.pre = .voiceSent → InStep e.pre.app.record))
    (q := fun y => y.app.sent.length == 2 * 88) (by decide +kernel)
  refine ⟨l, y, hr, by simpa using hlen, sendRing_oldest hr ?_ ?_⟩
  · intro e he
    exact wholeFrame_of_test ((Bool.and_eq_true _ _).mp (hall e he)).1
  · intro e he
    exact of_decide_eq_true ((Bool.and_eq_true _ _).mp (hall e he)).2

/-- The accept frame comes again while a packet waits: the packet sent is the one before. -/
theorem acceptedTwice_not_oldest :
    ∃ l y, Run.Runs exec Sys.init l y ∧ (∀ e ∈ l, WholeFrame e) ∧
      ¬ ∀ l₁ e l₂, l = l₁ ++ e :: l₂ → SendsOldest (sendHistory l₁) e := by
  obtain ⟨l, y, hr, hq⟩ := Runs.of_acts_test (l := [.socket Platform.connects,
    .socketEvent (.readInd 10), .recv acceptedFrame, .isCmd, .isCmd, .isCmd, .isCmd,
    .mp3 Platform.silent, .audio Platform.silent, .audio Platform.silent,
    .audioRecordCb (fun _ => 0) 320, .socketEvent (.readInd 10), .socket Platform.silent,
    .audioRecordCb (fun _ => 0x40) 320, .recv acceptedFrame, .isCmd, .isCmd, .isCmd, .isCmd,
    .socket Platform.silent])
    (q := fun l _ => l.all (fun e => e.act.wholeFrame) &&
      !Run.everySplit (fun l₁ e => !decide (eventOf e.act e.pre = .voiceSent) ||
        ((sendHistory l₁).packets[(sendHistory l₁).sent]?).any fun packet => e.post.app.sent ==
          e.pre.app.sent ++ ([0xAA, 0xFA, 0x00, 0x00, 0x01, 0x09, 0x00, 0x50] ++ packet)) l)
    (by decide +kernel)
  obtain ⟨hframes, hlast⟩ := (Bool.and_eq_true _ _).mp hq
  refine ⟨l, y, hr, fun e he => wholeFrame_of_test (List.all_eq_true.mp hframes e he), ?_⟩
  intro h
  rw [Bool.not_eq_true', ← Bool.not_eq_true] at hlast
  refine hlast (Run.everySplit_iff.mpr ?_)
  intro l₁ e l₂ hl
  by_cases hev : eventOf e.act e.pre = .voiceSent
  · obtain ⟨packet, hpacket, hsent⟩ := h l₁ e l₂ hl hev
    simp [hpacket, hsent]
  · simp [hev]

end IntercomSalve
