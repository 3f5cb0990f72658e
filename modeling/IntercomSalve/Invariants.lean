/-
# `Invariants` — what holds in every reachable state

Two facts the receive parser rests on.  `socket_data_handle` always starts with
the five header bytes, because every handler writes behind them (`HandleOk`).
And the number of saved bytes is 0, or a voice frame is in progress of which a
part is still missing (`ResumeOk`); outside message 122 the parser's globals are
only ever cleared (`Quiets`), so message 122 is the whole work there.
-/
import IntercomSalve.Cursor
import IntercomSalve.Handlers

namespace IntercomSalve

open Goto

/-! ## The header bytes -/

theorem HandleOk.of_head {s t : App} (h : t.head = s.head) (hs : HandleOk s) : HandleOk t := by
  have hk : ∀ k, k < 5 → t.socketDataHandle k = s.socketDataHandle k := by
    intro k hk
    have := congrArg (fun l => l.getD k 0) h
    simpa only [App.head, Mem.getD_slice _ _ _ _ hk, Nat.zero_add] using this
  obtain ⟨h0, h1, h2, h3, h4⟩ := hs
  exact ⟨(hk 0 (by decide)).trans h0, (hk 1 (by decide)).trans h1, (hk 2 (by decide)).trans h2,
    (hk 3 (by decide)).trans h3, (hk 4 (by decide)).trans h4⟩

theorem Does.head_eq {s t : App} (h : Does s t) : t.head = s.head := by
  cases h with
  | handle m hm => exact hm
  | _ => rfl

theorem Doing.head_eq {s t : App} (h : Doing s t) : t.head = s.head :=
  h.keeps_eq fun _ _ hd => hd.head_eq

/-- What message 122 leaves alone once the bytes are received: the buffer, the header
bytes, the queue of the socket thread, and of the recorder all but the position the
next packet is sent from. -/
structure RecvSide (s t : App) : Prop where
  head : t.head = s.head
  pRecv : t.rx.pRecv = s.rx.pRecv
  socketMsgs : t.socketMsgs = s.socketMsgs
  temp : t.uart.temp = s.uart.temp
  audioEnV2 : t.audioEnV2 = s.audioEnV2
  audioData : t.record.audioData = s.record.audioData
  audioDataNum : t.record.audioDataNum = s.record.audioDataNum
  audioDataEn : t.record.audioDataEn = s.record.audioDataEn

theorem RecvSide.refl (s : App) : RecvSide s s := ⟨rfl, rfl, rfl, rfl, rfl, rfl, rfl, rfl⟩

theorem RecvSide.trans {s t u : App} (h : RecvSide s t) (h' : RecvSide t u) : RecvSide s u where
  head := h'.head.trans h.head
  pRecv := h'.pRecv.trans h.pRecv
  socketMsgs := h'.socketMsgs.trans h.socketMsgs
  temp := h'.temp.trans h.temp
  audioEnV2 := h'.audioEnV2.trans h.audioEnV2
  audioData := h'.audioData.trans h.audioData
  audioDataNum := h'.audioDataNum.trans h.audioDataNum
  audioDataEn := h'.audioDataEn.trans h.audioDataEn

theorem dialBusy_recvSide (s : App) : RecvSide s (dialBusy s) := by
  unfold dialBusy
  split
  · split <;> exact ⟨rfl, rfl, rfl, rfl, rfl, rfl, rfl, rfl⟩
  · exact .refl s

theorem dialRefused_recvSide (s : App) : RecvSide s (dialRefused s) := by
  unfold dialRefused
  split <;> exact ⟨rfl, rfl, rfl, rfl, rfl, rfl, rfl, rfl⟩

theorem dial_recvSide (s : App) : RecvSide s (dialReqReqCallReturnHander s) := by
  unfold dialReqReqCallReturnHander
  split
  · exact dialBusy_recvSide s
  · exact ⟨rfl, rfl, rfl, rfl, rfl, rfl, rfl, rfl⟩
  · exact ⟨rfl, rfl, rfl, rfl, rfl, rfl, rfl, rfl⟩
  · exact ⟨rfl, rfl, rfl, rfl, rfl, rfl, rfl, rfl⟩
  · exact dialRefused_recvSide s
  · exact dialRefused_recvSide s
  · exact .refl s

theorem calledAnswer_recvSide (s : App) : RecvSide s (calledAnswer s) := by
  unfold calledAnswer
  split
  · exact ⟨rfl, rfl, rfl, rfl, rfl, rfl, rfl, rfl⟩
  · exact ⟨(sendCallFrame_doing _ _ _ _ _).head_eq, rfl, rfl, rfl, rfl, rfl, rfl, rfl⟩

theorem calledHangUp_recvSide (s : App) : RecvSide s (calledHangUp s) := by
  unfold calledHangUp
  split <;> exact ⟨rfl, rfl, rfl, rfl, rfl, rfl, rfl, rfl⟩

theorem called_recvSide (s : App) : RecvSide s (calledReqReqCallReturnHander s) := by
  unfold calledReqReqCallReturnHander
  split
  · exact .refl s
  · split
    · exact calledAnswer_recvSide s
    · exact calledHangUp_recvSide s
    · exact calledHangUp_recvSide s
    · exact .refl s
    · exact .refl s

theorem voiceFrame_recvSide (n ret : Nat) (s : App) : RecvSide s (voiceFrame n ret s).state := by
  unfold voiceFrame
  split <;> exact ⟨rfl, rfl, rfl, rfl, rfl, rfl, rfl, rfl⟩

theorem broadcastStart_recvSide (s : App) : RecvSide s (broadcastStart s) := by
  unfold broadcastStart
  split <;> exact ⟨rfl, rfl, rfl, rfl, rfl, rfl, rfl, rfl⟩

theorem broadcastStop_recvSide (s : App) : RecvSide s (broadcastStop s) := by
  unfold broadcastStop
  split <;> exact ⟨rfl, rfl, rfl, rfl, rfl, rfl, rfl, rfl⟩

theorem advance_recvSide (n : Nat) (s : App) : RecvSide s (advance n s) :=
  ⟨rfl, rfl, rfl, rfl, rfl, rfl, rfl, rfl⟩

theorem setLength_recvSide (n : Nat) (s : App) : RecvSide s (setLength n s) :=
  ⟨rfl, rfl, rfl, rfl, rfl, rfl, rfl, rfl⟩

theorem asVoice_recvSide (s : App) : RecvSide s (asVoice s) :=
  ⟨rfl, rfl, rfl, rfl, rfl, rfl, rfl, rfl⟩

theorem broadcastVoice_recvSide (ret : Nat) (s : App) :
    RecvSide s (broadcastVoice ret s).state := by
  have hv := (setLength_recvSide 80 s).trans (voiceFrame_recvSide 10 ret (setLength 80 s))
  unfold broadcastVoice
  split
  · next u hu =>
      rw [hu] at hv
      exact hv
  · next u hu =>
      rw [hu] at hv
      exact hv.trans (advance_recvSide 8 u)

theorem broadcastFrame_recvSide (ret : Nat) (s : App) :
    RecvSide s (broadcastFrame ret s).state := by
  unfold broadcastFrame
  split
  · exact ((asVoice_recvSide s).trans (broadcastStart_recvSide _)).trans
      (broadcastVoice_recvSide ret _)
  · exact ((asVoice_recvSide s).trans (broadcastStop_recvSide _)).trans (advance_recvSide 8 _)

theorem caseOf_recvSide (ret : Nat) (c : SocketInstruction) (s : App) :
    RecvSide s (caseOf ret c s).state := by
  cases c with
  | instruction4 => exact (dial_recvSide s).trans (advance_recvSide 8 _)
  | instruction5 => exact (called_recvSide s).trans (advance_recvSide 8 _)
  | instruction10 => exact voiceFrame_recvSide 8 ret s
  | instruction34 => exact broadcastFrame_recvSide ret s
  | _ => exact ⟨rfl, rfl, rfl, rfl, rfl, rfl, rfl, rfl⟩

/-- **A pass of the loop.** -/
theorem isCmd_recvSide (ret : Nat) (s : App) : RecvSide s (isCmd ret s).state := by
  unfold isCmd
  split
  · split
    · rcases dispatch_cases ret (readHeader s) with ⟨c, -, -, h⟩ | h
      · rw [h]
        have hread : RecvSide s ((readHeader s).log (.instruction c)) :=
          ⟨rfl, rfl, rfl, rfl, rfl, rfl, rfl, rfl⟩
        exact hread.trans (caseOf_recvSide ret c _)
      · rw [h]
        exact ⟨rfl, rfl, rfl, rfl, rfl, rfl, rfl, rfl⟩
    · exact ⟨rfl, rfl, rfl, rfl, rfl, rfl, rfl, rfl⟩
  · exact .refl s

/-- **The part of message 122 before the loop.** -/
theorem message122_recvSide (n : Nat) (chunk : List UInt8) (s : App) :
    RecvSide (socketRecv n chunk s) (message122 n chunk s).state := by
  unfold message122
  split
  · exact .refl _
  · split
    · unfold resumeVoice
      split
      · split <;> exact ⟨rfl, rfl, rfl, rfl, rfl, rfl, rfl, rfl⟩
      · exact ⟨rfl, rfl, rfl, rfl, rfl, rfl, rfl, rfl⟩
    · exact ⟨rfl, rfl, rfl, rfl, rfl, rfl, rfl, rfl⟩

theorem AudioSide.head_eq {s t : App} (h : AudioSide s t) : t.head = s.head := by
  rw [App.head, h.handle]
  rfl

theorem socketTestThread_head (io : Platform) {m : SocketMsg} (hm : ∀ n, m ≠ .msg122 n)
    (s : App) : (socketTestThread io m s).head = s.head := by
  obtain ⟨t, r, hdoing, heq⟩ := socketTestThread_eq io hm s
  rw [heq]
  exact hdoing.head_eq

/-- No step touches the header bytes. -/
theorem Steps.head_eq {x y : Sys} {a : Act} (h : Steps x a y) : y.app.head = x.app.head := by
  cases h with
  | isCmd =>
      rw [Sys.ofJump_app]
      exact (isCmd_recvSide _ _).head
  | recv _ _ =>
      rw [Sys.ofJump_app]
      exact (message122_recvSide _ _ _).head
  | socket _ hm => exact socketTestThread_head _ hm _
  | audio _ => exact (audioDuplexthread_audioSide _ _ _).head_eq
  | mp3 _ => exact (audioPlayMP3Thread_audioSide _ _ _).head_eq
  | timerHeartbeat =>
      dsimp only
      exact (timerHeartbeat_doing _ _).head_eq
  | socketEvent =>
      obtain ⟨l, ms, os, -, heq⟩ := socketEventProcessCb_eq _ _
      rw [heq]
      rfl
  | audioRecordCb => exact (audioRecordCb_audioSide _ _ _).head_eq
  | audioPlayCb => exact (audioPlayCb_audioSide _).head_eq
  | timerHeartbeat2 _ | uart2Event | uart3Event => rfl

/-- Every frame sent or looked for starts with `AA FA 00 00 01`. -/
theorem Reachable.handleOk {x : Sys} (h : Reachable x) : HandleOk x.app :=
  h.invariant (I := fun x => HandleOk x.app) ⟨rfl, rfl, rfl, rfl, rfl⟩
    fun _ _ _ hx hs => .of_head hs.head_eq hx

theorem Receives.handleOk {n : Nat} {s : App} (h : Receives n s) : HandleOk s := by
  obtain ⟨x, ms, hx, -, -, rfl⟩ := h
  exact hx.handleOk

/-! ## The frame in progress -/

/-- Some bytes are saved: a voice frame is in progress, and part of it is missing. -/
def ResumeOk (r : Rx) : Prop :=
  r.currentDataLengthSave ≠ 0 →
    r.analysisHandle = SocketInstruction.instruction10.code ∧
      r.currentDataLengthSave < r.currentDataLength ∧ r.currentDataLength ≤ 65535

theorem ResumeOk.of_save {r : Rx} (h : r.currentDataLengthSave = 0) : ResumeOk r :=
  fun hne => absurd h hne

/-- What happens to the parser outside message 122: nothing, or it is cleared. -/
def Quiets (r r' : Rx) : Prop :=
  r' = r ∨ r' = r.clear ∨ r' = { r with currentDataLengthSave := 0 }

theorem Quiets.trans {r r' r'' : Rx} (h : Quiets r r') (h' : Quiets r' r'') : Quiets r r'' := by
  rcases h with rfl | rfl | rfl
  · exact h'
  · rcases h' with rfl | rfl | rfl
    · exact Or.inr (Or.inl rfl)
    · exact Or.inr (Or.inl rfl)
    · exact Or.inr (Or.inl rfl)
  · rcases h' with rfl | rfl | rfl
    · exact Or.inr (Or.inr rfl)
    · exact Or.inr (Or.inl rfl)
    · exact Or.inr (Or.inr rfl)

theorem Quiets.resumeOk {r r' : Rx} (h : Quiets r r') (hr : ResumeOk r) : ResumeOk r' := by
  rcases h with rfl | rfl | rfl
  · exact hr
  · exact .of_save rfl
  · exact .of_save rfl

theorem Does.quiets {s t : App} (h : Does s t) : Quiets s.rx t.rx := by
  cases h with
  | clearVars => exact Or.inr (Or.inl rfl)
  | dropFrame => exact Or.inr (Or.inr rfl)
  | _ => exact Or.inl rfl

theorem Doing.quiets {s t : App} (h : Doing s t) : Quiets s.rx t.rx :=
  h.keeps (R := fun s t => Quiets s.rx t.rx) (fun _ => Or.inl rfl) (fun _ _ _ => Quiets.trans)
    fun _ _ => Does.quiets

/-- Outside the loop, a message of the socket thread other than 122. -/
theorem socketTestThread_quiets (io : Platform) {m : SocketMsg} (hm : ∀ n, m ≠ .msg122 n)
    (s : App) : Quiets s.rx (socketTestThread io m s).rx := by
  obtain ⟨t, r, hdoing, heq⟩ := socketTestThread_eq io hm s
  rw [heq]
  exact hdoing.quiets

/-- A voice frame leaves the parser with nothing saved, or with the bytes that are
there when some are missing. -/
theorem voiceFrame_resumeOk {n ret : Nat} {s : App}
    (hah : s.rx.analysisHandle = SocketInstruction.instruction10.code)
    (hsave : s.rx.currentDataLengthSave = 0) (hlen : s.rx.currentDataLength ≤ 65535)
    (hn : n ≤ 10) (hd : s.rx.handleDeviation < ret) (hret : ret < 65536) :
    ResumeOk (voiceFrame n ret s).state.rx := by
  by_cases hw : VoiceWhole n ret s
  · rw [voiceFrame_whole hw]
    exact .of_save hsave
  · rw [voiceFrame_part hw]
    rw [VoiceWhole, le_sub32_iff hlen hn hd hret] at hw
    have hpart : sub32 (sub32 ret s.rx.handleDeviation) n = ret - s.rx.handleDeviation - n :=
      sub32_rest (by omega)
    intro _
    refine ⟨hah, ?_, hlen⟩
    show sub32 (sub32 ret s.rx.handleDeviation) n < s.rx.currentDataLength
    omega

theorem broadcastFrame_resumeOk {ret : Nat} {s : App} (hsave : s.rx.currentDataLengthSave = 0)
    (hd : s.rx.handleDeviation < ret) (hret : ret < 65536) :
    ResumeOk (broadcastFrame ret s).state.rx := by
  unfold broadcastFrame
  split
  · have hrx : (setLength 80 (broadcastStart (asVoice s))).rx =
        { s.rx with
          currentDataLength := 80
          analysisHandle := SocketInstruction.instruction10.code } := by
      show { (broadcastStart (asVoice s)).rx with currentDataLength := 80 } = _
      rw [broadcastStart_rx]
      rfl
    have hv : ResumeOk (voiceFrame 10 ret (setLength 80 (broadcastStart (asVoice s)))).state.rx :=
      voiceFrame_resumeOk (by rw [hrx]) (by rw [hrx]; exact hsave)
        (by rw [hrx]; exact (by decide : 80 ≤ 65535))
        (by decide) (by rw [hrx]; exact hd) hret
    unfold broadcastVoice
    split
    · next u hu =>
        rw [hu] at hv
        exact hv
    · next u hu =>
        rw [hu] at hv
        exact hv
  · refine .of_save ?_
    show (broadcastStop (asVoice s)).rx.currentDataLengthSave = 0
    rw [broadcastStop_rx]
    exact hsave

theorem lenAt_le (s : App) : lenAt s ≤ 65535 := by
  have h6 := (s.rx.byteAt 6).toNat_lt
  have h7 := (s.rx.byteAt 7).toNat_lt
  unfold lenAt
  omega

theorem dispatch_resumeOk {ret : Nat} {s : App} (hd : s.rx.handleDeviation < ret)
    (hret : ret < 65536) : ResumeOk (dispatch ret (readHeader s)).state.rx := by
  rcases dispatch_cases ret (readHeader s) with ⟨c, hc, hcase, h⟩ | h
  · rw [h]
    cases c with
    | instruction4 =>
        refine .of_save ?_
        show (dialReqReqCallReturnHander _).rx.currentDataLengthSave = 0
        by_cases hr : dialResets ((readHeader s).log (.instruction .instruction4))
        · rw [dial_rx_of_resets hr]
          rfl
        · rw [dial_rx_of_not hr]
          rfl
    | instruction5 =>
        refine .of_save ?_
        show (calledReqReqCallReturnHander _).rx.currentDataLengthSave = 0
        by_cases hr : calledResets ((readHeader s).log (.instruction .instruction5))
        · rw [called_rx_of_resets hr]
          rfl
        · rw [called_rx_of_not hr]
          rfl
    | instruction10 =>
        exact voiceFrame_resumeOk (SocketInstruction.ofCode_eq_some.mp hc) rfl (lenAt_le s)
          (by decide) hd hret
    | instruction2 =>
        refine .of_save ?_
        show (loginReturn _).rx.currentDataLengthSave = 0
        rw [loginReturn_rx]
        rfl
    | instruction34 => exact broadcastFrame_resumeOk rfl hd hret
    | instruction12 | instruction21 | instruction29 | instruction32 => exact .of_save rfl
    | _ => exact absurd hcase (by decide)
  · rw [h]
    exact .of_save rfl

theorem isCmd_resumeOk {ret : Nat} {s : App} (hret : ret < 65536) (hs : ResumeOk s.rx) :
    ResumeOk (isCmd ret s).state.rx := by
  unfold isCmd
  split
  · next hd =>
      split
      · exact dispatch_resumeOk hd hret
      · exact hs
  · exact hs

theorem message122_resumeOk {n : Nat} {chunk : List UInt8} {s : App} (hs : ResumeOk s.rx) :
    ResumeOk (message122 n chunk s).state.rx := by
  unfold message122
  split
  · exact hs
  · split
    · next hne =>
        obtain ⟨hah, hlt, hle⟩ := hs hne
        unfold resumeVoice
        split
        · split
          · exact .of_save rfl
          · next hrest =>
              intro _
              have hrest' : ¬ sub32 s.rx.currentDataLength s.rx.currentDataLengthSave ≤
                  chunk.length := hrest
              rw [sub32_of_le (Nat.le_of_lt hlt)] at hrest'
              refine ⟨hah, ?_, hle⟩
              show s.rx.currentDataLengthSave + chunk.length < s.rx.currentDataLength
              omega
        · exact hs
    · exact hs

/-! ## The invariant of the parser -/

/-- What the receive parser can rely on. -/
structure ParserOk (x : Sys) : Prop where
  /-- `DataLen` is a `uint16` -/
  reads : ∀ n, .msg122 n ∈ x.app.socketMsgs → n < 65536
  ret : ∀ r, x.atIsCmd = some r → r < 65536
  resume : ResumeOk x.app.rx

theorem Does.reads {s t : App} (h : Does s t) (n : Nat) (hn : .msg122 n ∈ t.socketMsgs) :
    .msg122 n ∈ s.socketMsgs := by
  cases h with
  | postSocket m hm =>
      rcases List.mem_append.mp hn with hn | hn
      · exact hn
      · obtain rfl := List.mem_singleton.mp hn
        exact nomatch hm
  | _ => exact hn

theorem Doing.reads {s t : App} (h : Doing s t) :
    ∀ n, .msg122 n ∈ t.socketMsgs → .msg122 n ∈ s.socketMsgs :=
  h.keeps (R := fun s t => ∀ n, .msg122 n ∈ t.socketMsgs → .msg122 n ∈ s.socketMsgs)
    (fun _ _ hn => hn) (fun _ _ _ h1 h2 n hn => h1 n (h2 n hn)) fun _ _ => Does.reads

theorem socketTestThread_reads (io : Platform) {m : SocketMsg} (hm : ∀ n, m ≠ .msg122 n)
    (s : App) :
    ∀ n, .msg122 n ∈ (socketTestThread io m s).socketMsgs → .msg122 n ∈ s.socketMsgs := by
  obtain ⟨t, r, hdoing, heq⟩ := socketTestThread_eq io hm s
  rw [heq]
  exact hdoing.reads

theorem AudioSide.resumeOk {s t : App} (h : AudioSide s t) (hs : ResumeOk s.rx) :
    ResumeOk t.rx := by
  rw [h.rx]
  exact hs

/-- A step keeps what the parser relies on. -/
theorem ParserOk.step {x y : Sys} {a : Act} (hx : ParserOk x) (h : Steps x a y) :
    ParserOk y := by
  cases h with
  | @isCmd s ret =>
      refine ⟨?_, ?_, ?_⟩
      · rw [Sys.ofJump_app, (isCmd_recvSide ret s).socketMsgs]
        exact hx.reads
      · intro r hr
        cases hj : isCmd ret s with
        | again t =>
            rw [hj] at hr
            obtain rfl := Option.some.inj hr
            exact hx.ret ret rfl
        | leave t =>
            rw [hj] at hr
            exact nomatch hr
      · rw [Sys.ofJump_app]
        exact isCmd_resumeOk (hx.ret ret rfl) hx.resume
  | @recv s n ms chunk hms hle =>
      have hn : n < 65536 := hx.reads n (by simp [hms])
      refine ⟨?_, ?_, ?_⟩
      · rw [Sys.ofJump_app, (message122_recvSide n chunk _).socketMsgs]
        intro k hk
        exact hx.reads k (by simp only [hms]; exact List.mem_cons_of_mem _ hk)
      · intro r hr
        cases hj : message122 n chunk { s with socketMsgs := ms } with
        | again t =>
            rw [hj] at hr
            obtain rfl := Option.some.inj hr
            omega
        | leave t =>
            rw [hj] at hr
            exact nomatch hr
      · rw [Sys.ofJump_app]
        exact message122_resumeOk hx.resume
  | @socket s m ms io hms hm =>
      refine ⟨?_, fun r hr => (nomatch hr), (socketTestThread_quiets io hm _).resumeOk hx.resume⟩
      intro k hk
      have hk' := socketTestThread_reads io hm _ k hk
      exact hx.reads k (by simp only [hms]; exact List.mem_cons_of_mem _ hk')
  | @audio s m ms io hms =>
      have hs := audioDuplexthread_audioSide io m { s with audioMsgs := ms }
      exact ⟨fun k hk => hx.reads k (hs.reads k hk), fun r hr => (nomatch hr),
        hs.resumeOk hx.resume⟩
  | @mp3 s m ms io hms =>
      have hs := audioPlayMP3Thread_audioSide io m { s with mp3Msgs := ms }
      exact ⟨fun k hk => hx.reads k (hs.reads k hk), fun r hr => (nomatch hr),
        hs.resumeOk hx.resume⟩
  | @timerHeartbeat s io =>
      have hs := timerHeartbeat_doing io s
      exact ⟨fun k hk => hx.reads k (hs.reads k hk), fun r hr => (nomatch hr),
        hs.quiets.resumeOk hx.resume⟩
  | @socketEvent s e =>
      refine ⟨?_, fun r hr => (nomatch hr), ?_⟩
      · intro k hk
        cases e with
        | readInd n =>
            rcases List.mem_append.mp hk with hk | hk
            · exact hx.reads k hk
            · obtain rfl := SocketMsg.msg122.inj (List.mem_singleton.mp hk)
              exact Nat.mod_lt _ (by decide)
        | connectRsp =>
            rcases List.mem_append.mp hk with hk | hk
            · exact hx.reads k hk
            · exact absurd (List.mem_singleton.mp hk) (by simp)
        | closeRsp => exact hx.reads k hk
        | errorInd => exact hx.reads k hk
        | unexpected => exact hx.reads k hk
      · obtain ⟨l, ms, os, -, heq⟩ := socketEventProcessCb_eq e s
        dsimp only
        rw [heq]
        exact hx.resume
  | @audioRecordCb s buff len =>
      have hs := audioRecordCb_audioSide buff len s
      exact ⟨fun k hk => hx.reads k (hs.reads k hk), fun r hr => (nomatch hr),
        hs.resumeOk hx.resume⟩
  | @audioPlayCb s =>
      have hs := audioPlayCb_audioSide s
      exact ⟨fun k hk => hx.reads k (hs.reads k hk), fun r hr => (nomatch hr),
        hs.resumeOk hx.resume⟩
  | timerHeartbeat2 _ | uart2Event | uart3Event =>
      exact ⟨hx.reads, fun r hr => (nomatch hr), hx.resume⟩

/-- **The parser's invariant** holds in every reachable state. -/
theorem Reachable.parserOk {x : Sys} (h : Reachable x) : ParserOk x :=
  h.invariant ⟨by simp [Sys.init, App.init], by simp [Sys.init], .of_save rfl⟩
    fun _ _ _ hx hs => hx.step hs

theorem Receives.resumeOk {n : Nat} {s : App} (h : Receives n s) : ResumeOk s.rx := by
  obtain ⟨x, ms, hx, -, -, rfl⟩ := h
  exact hx.parserOk.resume

theorem Receives.lt {n : Nat} {s : App} (h : Receives n s) : n < 65536 := by
  obtain ⟨x, ms, hx, -, hm, rfl⟩ := h
  exact hx.parserOk.reads n (by simp [hm])

end IntercomSalve
