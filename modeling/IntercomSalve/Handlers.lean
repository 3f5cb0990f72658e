/-
# `Handlers` — what the handlers outside message 122 do

A message of the socket thread other than 122 and 125, and a tick of the timer,
is a sequence of small things: a frame is built and sent, a relay command is
filled in and posted, the call is put back to idle, the variables are cleared, a
counter moves.  `Does` lists them, and `socketTestThread_doing` and
`timerHeartbeat_doing` say that each handler is a sequence of them.

Whatever each of these things keeps, every handler keeps (`Doing.keeps`), so what
a handler leaves alone is read off the list and not off the handler.
-/
import Mathlib.Logic.Relation
import IntercomSalve.System

namespace IntercomSalve

/-- The entries of the log that are neither about UART3 nor about the voice device. -/
def Out.isPlain : Out → Bool
  | .uart3Posted _ | .uartWrite _ | .audioDevStartPocMode | .audioDevStopPocMode => false
  | _ => true

/-- The messages that carry data: received bytes, and recorded voice. -/
def SocketMsg.isData : SocketMsg → Bool
  | .msg122 _ | .msg125 => true
  | _ => false

/-- The messages that the seconds bring. -/
def SocketMsg.isTimed : SocketMsg → Bool
  | .msg121 | .msg124 | .msg126 | .msg128 | .msg130 | .msg133 => true
  | _ => false

/-- The first five bytes of `socket_data_handle`. -/
def App.head (s : App) : List UInt8 := s.socketDataHandle.slice 0 5

/-- One thing a handler does. -/
inductive Does : App → App → Prop
  | link {s : App} (l : Link) : Does s { s with link := l }
  | out {s : App} (os : List Out) :
      (∀ o ∈ os, o.isPlain = true) → Does s { s with out := s.out ++ os }
  | handle {s : App} (h : Mem) :
      h.slice 0 5 = s.head → Does s { s with socketDataHandle := h }
  | postSocket {s : App} (m : SocketMsg) : m.isTimed = true → Does s (s.postSocket m)
  | hmiNews2 {s : App} : Does s (s.postAudio .hmiNews2)
  | uart3Write {s : App} (cmd a b : UInt8) : Does s (sendUart3Write cmd a b s)
  | newDay {s : App} (m : Mem) :
      Does s (App.postUart3 .uart3Writenewday { s with uart.uart3Writenewday := m })
  | clearVars {s : App} : Does s (clearVars s)
  | callOver {s : App} : Does s (callOver s)
  | call {s : App} (c : Call) :
      c.callUserOperation = s.call.callUserOperation → c.mailList = s.call.mailList →
      c.mailListId = s.call.mailListId → Does s { s with call := c }
  | dropFrame {s : App} : Does s { s with rx.currentDataLengthSave := 0 }
  | audioOff {s : App} :
      Does s { (s.log .audioDevStopPocMode).log .audioStop with audioEnV2 := 0 }

/-- A sequence of such things. -/
def Doing : App → App → Prop := Relation.ReflTransGen Does

theorem Doing.refl {s : App} : Doing s s := Relation.ReflTransGen.refl

theorem Doing.one {s t : App} (h : Does s t) : Doing s t := Relation.ReflTransGen.single h

theorem Doing.tail {s t u : App} (h : Doing s t) (hd : Does t u) : Doing s u :=
  Relation.ReflTransGen.tail h hd

theorem Doing.trans {s t u : App} (h : Doing s t) (h' : Doing t u) : Doing s u :=
  Relation.ReflTransGen.trans h h'

/-- What every single thing keeps, a sequence keeps. -/
theorem Doing.keeps {R : App → App → Prop} (hrefl : ∀ s, R s s)
    (htrans : ∀ s t u, R s t → R t u → R s u) (hdoes : ∀ s t, Does s t → R s t) {s t : App}
    (h : Doing s t) : R s t := by
  induction h with
  | refl => exact hrefl s
  | tail _ hlast ih => exact htrans _ _ _ ih (hdoes _ _ hlast)

theorem Doing.keeps_eq {β : Type} {f : App → β} (hdoes : ∀ s t, Does s t → f t = f s) {s t : App}
    (h : Doing s t) : f t = f s :=
  h.keeps (R := fun s t => f t = f s) (fun _ => rfl) (fun _ _ _ h1 h2 => h2.trans h1) hdoes

/-! ## The pieces handlers are made of -/

theorem log_doing {o : Out} (h : o.isPlain = true) (s : App) : Doing s (s.log o) :=
  .one (.out [o] (by simpa using h))

theorem socketSend_doing (buf : Mem) (n : Nat) (s : App) : Doing s (s.socketSend buf n) :=
  log_doing rfl s

theorem newConnect_doing (ret : Int) (s : App) : Doing s (newConnect ret s) := by
  have h : newConnect ret s =
      { s with out := s.out ++ if ret = -1 then [.socketClose] else [] } := by
    unfold newConnect
    split <;> simp
  rw [h]
  refine .one (.out _ ?_)
  intro o ho
  split at ho
  · obtain rfl := List.mem_singleton.mp ho
    rfl
  · exact absurd ho List.not_mem_nil

theorem head_memcpy {m src : Mem} {i n : Nat} (hi : 5 ≤ i) :
    (m.memcpy i src n).slice 0 5 = m.slice 0 5 :=
  Mem.slice_congr fun k hk => Mem.memcpy_of_lt (by omega)

theorem sendCallFrame_doing (cmd : SocketInstruction) (road code : UInt8) (imei : Mem) (s : App) :
    Doing s (sendCallFrame cmd road code imei s) := by
  refine .trans (.one (.handle _ ?_)) (socketSend_doing _ 25 _)
  rw [head_memcpy (by decide), head_memcpy (by decide)]
  rfl

theorem poke_doing {i : Nat} (hi : 5 ≤ i) (bs : List UInt8) (s : App) : Doing s (poke i bs s) :=
  .one (.handle _ (head_memcpy hi))

theorem pokeFrom_doing {i : Nat} (hi : 5 ≤ i) (src : Mem) (n : Nat) (s : App) :
    Doing s (pokeFrom i src n s) :=
  .one (.handle _ (head_memcpy hi))

theorem sendHandle_doing (n : Nat) (s : App) : Doing s (sendHandle n s) := socketSend_doing _ n s

/-! ## The call timer -/

theorem overtimeIdle_doing (s : App) : Doing s (overtimeIdle s) :=
  (((Doing.one .hmiNews2).tail (.uart3Write _ _ _)).tail .callOver).tail .clearVars

theorem callingRepeat_doing (io : Platform) (s : App) : Doing s (callingRepeat io s) := by
  unfold callingRepeat
  split
  · exact (sendCallFrame_doing _ _ _ _ s).trans (newConnect_doing _ _)
  · exact .refl

theorem callingRepeat_rx (io : Platform) (s : App) : (callingRepeat io s).rx = s.rx := by
  unfold callingRepeat
  split <;> rfl

theorem callingRepeat_call (io : Platform) (s : App) : (callingRepeat io s).call = s.call := by
  unfold callingRepeat
  split <;> rfl

theorem callingEnd_doing (io : Platform) (s : App) : Doing s (callingEnd io s) := by
  unfold callingEnd
  split
  · exact ((sendCallFrame_doing _ _ _ _ s).trans (newConnect_doing _ _)).trans
      (overtimeIdle_doing _)
  · exact .refl

theorem ringingSwitch_doing (io : Platform) (s : App) : Doing s (ringingSwitch io s) := by
  unfold ringingSwitch
  split
  · exact ((sendCallFrame_doing _ _ _ _ s).trans (sendCallFrame_doing _ _ _ _ _)).trans
      (newConnect_doing _ _)
  · exact .refl

theorem ringingSwitch_rx (io : Platform) (s : App) : (ringingSwitch io s).rx = s.rx := by
  unfold ringingSwitch
  split <;> rfl

theorem ringingSwitch_call (io : Platform) (s : App) : (ringingSwitch io s).call = s.call := by
  unfold ringingSwitch
  split <;> rfl

theorem ringingEnd_doing (io : Platform) (s : App) : Doing s (ringingEnd io s) := by
  unfold ringingEnd
  split
  · exact ((sendCallFrame_doing _ _ _ _ s).trans (newConnect_doing _ _)).trans
      (overtimeIdle_doing _)
  · exact .refl

theorem overtimeClose_doing (s : App) : Doing s (overtimeClose s) :=
  ((Doing.one .callOver).tail (.uart3Write _ _ _)).tail .clearVars

theorem dropSocket_doing (s : App) : Doing s (dropSocket s) := (log_doing rfl s).tail (.link _)

theorem connectedQuiet_doing (s : App) : Doing s (connectedQuiet s) := by
  unfold connectedQuiet
  split
  · exact (log_doing rfl s).trans (overtimeClose_doing _)
  · exact .refl

theorem connectedEnd_doing (io : Platform) (s : App) : Doing s (connectedEnd io s) := by
  unfold connectedEnd
  split
  · refine .trans ?_ (dropSocket_doing _)
    refine .trans ?_ (overtimeClose_doing _)
    refine .tail ?_ .hmiNews2
    exact (sendCallFrame_doing _ _ _ _ s).trans (newConnect_doing _ _)
  · exact .refl

theorem calledQuiet_doing (s : App) : Doing s (calledQuiet s) := by
  unfold calledQuiet
  split
  · exact ((log_doing rfl s).tail .hmiNews2).trans (overtimeClose_doing _)
  · exact .refl

theorem calledEnd_doing (io : Platform) (s : App) : Doing s (calledEnd io s) := by
  unfold calledEnd
  split
  · refine .trans ?_ (overtimeClose_doing _)
    refine .tail ?_ .hmiNews2
    exact (sendCallFrame_doing _ _ _ _ s).trans (newConnect_doing _ _)
  · exact .refl

theorem callSecond_doing (s : App) : Doing s (callSecond s) := .one (.call _ rfl rfl rfl)

theorem callOvertimeFun_doing (io : Platform) (s : App) : Doing s (callOvertimeFun io s) := by
  refine (callSecond_doing s).trans ?_
  unfold callOvertimeFun overtimeOf
  split
  · exact (callingRepeat_doing io _).trans (callingEnd_doing io _)
  · split
    · exact (ringingSwitch_doing io _).trans (ringingEnd_doing io _)
    · split
      · exact (connectedQuiet_doing _).trans (connectedEnd_doing io _)
      · split
        · exact (calledQuiet_doing _).trans (calledEnd_doing io _)
        · exact .refl

/-! ## The other messages of the socket thread -/

theorem message121_doing (io : Platform) (s : App) : Doing s (message121 io s) := by
  unfold message121
  have h : Doing s ((sendHandle 8 (poke 5 [0x01, 0, 0x0f] s)).socketSend io.sysImei 15) :=
    ((poke_doing (by decide) _ s).trans (sendHandle_doing 8 _)).trans (socketSend_doing _ 15 _)
  dsimp only
  split
  · exact h.trans (dropSocket_doing _)
  · exact h

theorem message123_doing (io : Platform) (s : App) : Doing s (message123 io s) :=
  (sendCallFrame_doing _ _ _ _ s).trans (newConnect_doing _ _)

theorem sendHeartbeat_doing (io : Platform) (s : App) : Doing s (sendHeartbeat io s) :=
  ((poke_doing (by decide) _ s).trans (sendHandle_doing 10 _)).trans (newConnect_doing _ _)

theorem message124_doing (io : Platform) (s : App) : Doing s (message124 io s) := by
  unfold message124
  split
  · exact ((sendHeartbeat_doing io s).tail .clearVars).tail (.uart3Write _ _ _)
  · exact sendHeartbeat_doing io s

theorem message127_doing (s : App) : Doing s (message127 s) :=
  ((Doing.one (.call (takeMarkers s.call).2 rfl rfl rfl)).trans
    (sendCallFrame_doing _ _ _ _ _)).trans (sendCallFrame_doing _ _ _ _ _)

theorem message128_doing (io : Platform) (s : App) : Doing s (message128 io s) :=
  ((poke_doing (by decide) _ s).trans (pokeFrom_doing (by decide) _ _ _)).trans
    (sendHandle_doing 23 _)

theorem message129_doing (io : Platform) (s : App) : Doing s (message129 io s) := by
  refine .trans ?_ (sendHandle_doing 29 _)
  refine .trans ?_ (pokeFrom_doing (by decide) _ _ _)
  refine .trans ?_ (poke_doing (by decide) _ _)
  refine .trans ?_ (poke_doing (by decide) _ _)
  refine .trans ?_ (poke_doing (by decide) _ _)
  refine .trans ?_ (poke_doing (by decide) _ _)
  refine .trans ?_ (poke_doing (by decide) _ _)
  refine .trans ?_ (poke_doing (by decide) _ _)
  exact (pokeFrom_doing (by decide) _ _ s).trans (poke_doing (by decide) _ _)

theorem newDay_doing (io : Platform) (s : App) : Doing s (newDay io s) := by
  unfold newDay
  split
  · exact .one (.newDay _)
  · exact .refl

theorem message130_doing (io : Platform) (s : App) : Doing s (message130 io s) :=
  (newDay_doing io s).tail (.link _)

theorem countFrame_doing (io : Platform) (id : UInt8) (a b : Mem) (s : App) :
    Doing s (countFrame io id a b s) := by
  refine .trans ?_ (sendHandle_doing 31 _)
  refine .trans ?_ (pokeFrom_doing (by decide) _ _ _)
  refine .trans ?_ (poke_doing (by decide) _ _)
  refine .trans ?_ (pokeFrom_doing (by decide) _ _ _)
  refine .trans ?_ (poke_doing (by decide) _ _)
  exact (poke_doing (by decide) _ s).trans (pokeFrom_doing (by decide) _ _ _)

theorem message131_doing (io : Platform) (s : App) : Doing s (message131 io s) :=
  (countFrame_doing io _ _ _ s).trans (countFrame_doing io _ _ _ _)

theorem message132_doing (io : Platform) (s : App) : Doing s (message132 io s) := by
  refine .trans ?_ (sendHandle_doing 27 _)
  refine .trans ?_ (pokeFrom_doing (by decide) _ _ _)
  exact (pokeFrom_doing (by decide) _ _ s).trans (poke_doing (by decide) _ _)

theorem audioStopV2_doing (s : App) : Doing s (audioStopV2 s) := by
  unfold audioStopV2
  split
  · exact .one .audioOff
  · exact .refl

theorem message133_doing (s : App) : Doing s (message133 s) := by
  unfold message133
  split
  · refine .tail ?_ (.uart3Write _ _ _)
    refine .trans ?_ (audioStopV2_doing _)
    exact .one (.call _ rfl rfl rfl)
  · exact .refl

/-! ## The timer -/

/-- One thing the timer does: it is one of the above, and touches neither the call nor
the frame buffer nor the audio side. -/
inductive Tick : App → App → Prop
  | link {s : App} (l : Link) : Tick s { s with link := l }
  | log {s : App} (o : Out) : o = .socketClose ∨ o = .powerReboot → Tick s (s.log o)
  | post {s : App} (m : SocketMsg) : m.isTimed = true → Tick s (s.postSocket m)
  | seconds {s : App} (a b : UInt8) :
      Tick s { s with call.mailListALLTim := a, call.isHostBusy := b }
  | dropFrame {s : App} : Tick s { s with rx.currentDataLengthSave := 0 }

/-- A sequence of such things. -/
def Ticks : App → App → Prop := Relation.ReflTransGen Tick

theorem Tick.doing {s t : App} (h : Tick s t) : Doing s t := by
  cases h with
  | link l => exact .one (.link l)
  | log o ho =>
      refine log_doing ?_ s
      rcases ho with rfl | rfl <;> rfl
  | post m hm => exact .one (.postSocket m hm)
  | seconds a b => exact .one (.call _ rfl rfl rfl)
  | dropFrame => exact .one .dropFrame

theorem Ticks.refl {s : App} : Ticks s s := Relation.ReflTransGen.refl

theorem Ticks.one {s t : App} (h : Tick s t) : Ticks s t := Relation.ReflTransGen.single h

theorem Ticks.tail {s t u : App} (h : Ticks s t) (hd : Tick t u) : Ticks s u :=
  Relation.ReflTransGen.tail h hd

theorem Ticks.trans {s t u : App} (h : Ticks s t) (h' : Ticks t u) : Ticks s u :=
  Relation.ReflTransGen.trans h h'

theorem Ticks.doing {s t : App} (h : Ticks s t) : Doing s t := by
  induction h with
  | refl => exact .refl
  | tail _ hlast ih => exact ih.trans hlast.doing

theorem Ticks.keeps_eq {β : Type} {f : App → β} (htick : ∀ s t, Tick s t → f t = f s) {s t : App}
    (h : Ticks s t) : f t = f s := by
  induction h with
  | refl => rfl
  | tail _ hlast ih => exact (htick _ _ hlast).trans ih

theorem timerSilence_ticks (s : App) : Ticks s (timerSilence s) := by
  unfold timerSilence
  split
  · exact .one (.log _ (Or.inr rfl))
  · exact .refl

theorem timerCall_ticks (s : App) : Ticks s (timerCall s) := by
  unfold timerCall
  split
  · exact .one (.post _ rfl)
  · exact .refl

theorem timerFrame_ticks (s : App) : Ticks s (timerFrame s) := by
  unfold timerFrame
  split
  · exact .one .dropFrame
  · exact .refl

theorem timerBroadcast_ticks (s : App) : Ticks s (timerBroadcast s) := by
  unfold timerBroadcast
  split
  · exact (Ticks.one (.seconds _ s.call.isHostBusy)).tail (.post _ rfl)
  · exact .refl

theorem timerHosts_ticks (s : App) : Ticks s (timerHosts s) := by
  unfold timerHosts
  split
  · split
    · exact (Ticks.one (.link _)).tail (.post _ rfl)
    · exact .one (.link _)
  · exact .refl

theorem timerDay_ticks (s : App) : Ticks s (timerDay s) := by
  unfold timerDay
  split
  · exact (Ticks.one (.link _)).tail (.post _ rfl)
  · exact .one (.link _)

theorem timerBusy_ticks (s : App) : Ticks s (timerBusy s) := by
  unfold timerBusy
  split
  · exact .one (.seconds s.call.mailListALLTim _)
  · exact .refl

theorem timerAlive_ticks (s : App) : Ticks s (timerAlive s) := by
  unfold timerAlive
  split
  · exact .one (.post _ rfl)
  · exact .refl

theorem timerLoggedIn_ticks (s : App) : Ticks s (timerLoggedIn s) := by
  unfold timerLoggedIn
  split
  · split
    · exact (((timerHosts_ticks s).trans (timerDay_ticks _)).trans (timerBusy_ticks _)).trans
        (timerAlive_ticks _)
    · exact timerHosts_ticks s
  · exact .refl

theorem closeAndWait_ticks (s : App) : Ticks s (closeAndWait s) :=
  (Ticks.one (.log _ (Or.inl rfl))).tail (.link _)

theorem loginSecond_ticks (s : App) : Ticks s (loginSecond s) := by
  unfold loginSecond
  split
  · split
    · exact (Ticks.one (.link _)).trans (closeAndWait_ticks _)
    · exact .refl
  · split
    · exact .one (.post _ rfl)
    · exact .refl

theorem timerLogin_ticks (s : App) : Ticks s (timerLogin s) := by
  unfold timerLogin
  split
  · exact (Ticks.one (.link _)).trans (loginSecond_ticks _)
  · exact .refl

theorem contentOver_ticks (s : App) : Ticks s (contentOver s) := by
  unfold contentOver
  split
  · exact .one (.log _ (Or.inl rfl))
  · split
    · exact (Ticks.one (.link _)).trans (closeAndWait_ticks _)
    · exact .refl

theorem timerContent_ticks (s : App) : Ticks s (timerContent s) := by
  unfold timerContent
  split
  · exact .refl
  · split
    · exact (Ticks.one (.link _)).trans (contentOver_ticks _)
    · exact .one (.link _)

theorem socketEnter_ticks (io : Platform) (s : App) : Ticks s (socketEnter io s) := by
  unfold socketEnter
  split
  · exact .one (.link _)
  · exact .refl

theorem waitForNet_ticks (n num : Nat) (s : App) : Ticks s (waitForNet n num s) := by
  have htry : ∀ num s, Ticks s (netTry num s) := by
    intro num s
    unfold netTry
    split
    · exact .one (.log _ (.inr rfl))
    · exact .refl
  induction n generalizing num s with
  | zero => exact htry num s
  | succ n ih => exact (htry num s).trans (ih _ _)

theorem closeOver_ticks (io : Platform) (s : App) : Ticks s (closeOver io s) := by
  unfold closeOver
  split
  · exact socketEnter_ticks io s
  · split
    · exact (Ticks.one (.link _)).trans (closeAndWait_ticks _)
    · exact .refl

theorem timerClose_ticks (io : Platform) (s : App) : Ticks s (timerClose io s) := by
  unfold timerClose
  split
  · exact .refl
  · split
    · exact (Ticks.one (.link _)).trans (closeOver_ticks io _)
    · exact .one (.link _)

/-- **The timer.** -/
theorem timerHeartbeat_ticks (io : Platform) (s : App) : Ticks s (timerHeartbeat io s) := by
  unfold timerHeartbeat
  refine .trans ?_ (timerClose_ticks io _)
  refine .trans ?_ (timerContent_ticks _)
  refine .trans ?_ (timerLogin_ticks _)
  refine .trans ?_ (timerLoggedIn_ticks _)
  refine .trans ?_ (timerBroadcast_ticks _)
  refine .trans ?_ (timerFrame_ticks _)
  exact ((Ticks.one (.link _)).trans (timerSilence_ticks _)).trans (timerCall_ticks _)

theorem timerHeartbeat_doing (io : Platform) (s : App) : Doing s (timerHeartbeat io s) :=
  (timerHeartbeat_ticks io s).doing

/-! ## The messages together, the socket events, and voice -/

/-- A socket event changes the connection, posts, and closes. -/
theorem socketEventProcessCb_eq (e : SocketEvent) (s : App) :
    ∃ l ms os, (∀ o ∈ os, o.isPlain = true) ∧
      socketEventProcessCb e s =
        { s with link := l, socketMsgs := s.socketMsgs ++ ms, out := s.out ++ os } := by
  refine ⟨(socketEventProcessCb e s).link, ?_⟩
  have hclose : ∀ o ∈ [Out.socketClose], o.isPlain = true := by simp [Out.isPlain]
  cases e with
  | connectRsp => exact ⟨[.msg121], [], by simp, by simp [socketEventProcessCb, App.postSocket]⟩
  | closeRsp => exact ⟨[], [], by simp, by simp [socketEventProcessCb]⟩
  | errorInd => exact ⟨[], _, hclose, by simp [socketEventProcessCb, dropSocket, App.log]⟩
  | unexpected => exact ⟨[], _, hclose, by simp [socketEventProcessCb, dropSocket, App.log]⟩
  | readInd n =>
      exact ⟨[.msg122 (n % 65536)], [], by simp, by simp [socketEventProcessCb, App.postSocket]⟩

/-- **The socket thread.**  Every message but 122 and 125. -/
theorem socketTestThread_doing (io : Platform) {m : SocketMsg} (hm : m.isData = false) (s : App) :
    Doing s (socketTestThread io m s) := by
  cases m with
  | msg120 => exact ((waitForNet_ticks _ _ s).trans (socketEnter_ticks io _)).doing
  | msg121 => exact message121_doing io s
  | msg122 n => exact absurd hm (by simp [SocketMsg.isData])
  | msg123 => exact message123_doing io s
  | msg124 => exact message124_doing io s
  | msg125 => exact absurd hm (by simp [SocketMsg.isData])
  | msg126 => exact callOvertimeFun_doing io s
  | msg127 => exact message127_doing s
  | msg128 => exact message128_doing io s
  | msg129 => exact message129_doing io s
  | msg130 => exact message130_doing io s
  | msg131 => exact message131_doing io s
  | msg132 => exact message132_doing io s
  | msg133 => exact message133_doing s

theorem sendVoice_doing (io : Platform) (s : App) : Doing s (sendVoice io s) := by
  refine .trans ?_ (newConnect_doing _ _)
  exact ((poke_doing (by decide) _ s).trans (sendHandle_doing 8 _)).trans (socketSend_doing _ _ _)

/-- **The socket thread** does nothing else but send voice from the ring, outside message
122. -/
theorem socketTestThread_eq (io : Platform) {m : SocketMsg} (hm : ∀ n, m ≠ .msg122 n) (s : App) :
    ∃ t r, Doing s t ∧ socketTestThread io m s = { t with record := r } := by
  cases hd : m.isData with
  | false =>
      have hdoing := socketTestThread_doing io hd s
      exact ⟨_, (socketTestThread io m s).record, hdoing, rfl⟩
  | true =>
      cases m with
      | msg122 n => exact absurd rfl (hm n)
      | msg125 =>
          show ∃ t r, Doing s t ∧ message125 io s = _
          unfold message125
          split
          · exact ⟨s, s.record, .refl, rfl⟩
          · exact ⟨sendVoice io s, voiceSent s.record, sendVoice_doing io s, rfl⟩
      | _ => exact absurd hd (by simp [SocketMsg.isData])

/-! ## The audio side -/

/-- What the audio thread, the prompt thread and the audio callbacks leave alone: the
parser, the frame buffer, the connection, the relay buffers, and of the call all but
its road and the markers; and no message 122 is posted.  A call may be started, and the
ring of received voice emptied. -/
structure AudioSide (s t : App) : Prop where
  rx : t.rx = s.rx
  handle : t.socketDataHandle = s.socketDataHandle
  httpUrl : t.httpUrl = s.httpUrl
  link : t.link = s.link
  bytes : t.uart3Bytes = s.uart3Bytes
  mailList : t.call.mailList = s.call.mailList
  mailListId : t.call.mailListId = s.call.mailListId
  callUserTim : t.call.callUserTim = s.call.callUserTim
  isMailListALL : t.call.isMailListALL = s.call.isMailListALL
  reads : ∀ n, .msg122 n ∈ t.socketMsgs → .msg122 n ∈ s.socketMsgs
  operation : t.call.callUserOperation = s.call.callUserOperation ∨
    s.call.callUserOperation = 0 ∧ t.call.callUserOperation = 1
  ring : t.play.playDataNum = s.play.playDataNum ∨ t.play.playDataNum = 0

theorem uart3Bytes_eq {s t : App} (h1 : t.uart.uart3Write = s.uart.uart3Write)
    (h2 : t.uart.uart3Writenewday = s.uart.uart3Writenewday)
    (h3 : t.uart.uart3Writejdq = s.uart.uart3Writejdq)
    (h4 : t.uart.uart3Writelogin = s.uart.uart3Writelogin) : t.uart3Bytes = s.uart3Bytes := by
  funext b
  cases b with
  | uart3Write => simp only [App.uart3Bytes, h1]
  | uart3Writenewday => simp only [App.uart3Bytes, h2]
  | uart3Writejdq => simp only [App.uart3Bytes, h3]
  | uart3Writelogin => simp only [App.uart3Bytes, h4]
  | boot => rfl

/-- Nothing but the audio thread's own globals is changed. -/
theorem AudioSide.own {s t : App}
    (h : t = { s with
      play := t.play, record := t.record, encode := t.encode, decode := t.decode
      uart.temp := t.uart.temp, audioEnV2 := t.audioEnV2, mp3GFileHandle := t.mp3GFileHandle
      timerStart := t.timerStart, audioMsgs := t.audioMsgs, mp3Msgs := t.mp3Msgs, out := t.out })
    (hp : t.play.playDataNum = s.play.playDataNum ∨ t.play.playDataNum = 0) : AudioSide s t where
  rx := by rw [h]
  handle := by rw [h]
  httpUrl := by rw [h]
  link := by rw [h]
  bytes := by
    rw [h]
    exact uart3Bytes_eq rfl rfl rfl rfl
  mailList := by rw [h]
  mailListId := by rw [h]
  callUserTim := by rw [h]
  isMailListALL := by rw [h]
  reads := by
    rw [h]
    exact fun _ hn => hn
  operation := by
    rw [h]
    exact Or.inl rfl
  ring := hp

theorem AudioSide.refl (s : App) : AudioSide s s := .own rfl (Or.inl rfl)

theorem AudioSide.trans {s t u : App} (h : AudioSide s t) (h' : AudioSide t u) : AudioSide s u where
  rx := h'.rx.trans h.rx
  handle := h'.handle.trans h.handle
  httpUrl := h'.httpUrl.trans h.httpUrl
  link := h'.link.trans h.link
  bytes := h'.bytes.trans h.bytes
  mailList := h'.mailList.trans h.mailList
  mailListId := h'.mailListId.trans h.mailListId
  callUserTim := h'.callUserTim.trans h.callUserTim
  isMailListALL := h'.isMailListALL.trans h.isMailListALL
  reads := fun n hn => h.reads n (h'.reads n hn)
  operation := by
    have h1 := h.operation
    have h2 := h'.operation
    rcases h2 with h2 | ⟨h0, h2⟩
    · rw [h2]
      exact h1
    · rcases h1 with h1 | ⟨-, h1⟩
      · exact Or.inr ⟨h1.symm.trans h0, h2⟩
      · exact absurd (h1.symm.trans h0) (by decide)
  ring := by
    rcases h'.ring with h2 | h2
    · rw [h2]
      exact h.ring
    · exact Or.inr h2

theorem audioStopV2_audioSide (s : App) : AudioSide s (audioStopV2 s) := by
  unfold audioStopV2
  split
  · exact .own rfl (Or.inl rfl)
  · exact .refl s

/-- Posting anything but message 122. -/
theorem postSocket_audioSide {m : SocketMsg} (hm : ∀ n, m ≠ .msg122 n) (s : App) :
    AudioSide s (s.postSocket m) := by
  refine ⟨rfl, rfl, rfl, rfl, uart3Bytes_eq rfl rfl rfl rfl, rfl, rfl, rfl, rfl, ?_, Or.inl rfl,
    Or.inl rfl⟩
  intro n hn
  rcases List.mem_append.mp hn with hn | hn
  · exact hn
  · exact absurd (List.mem_singleton.mp hn).symm (hm n)

theorem buttonCall_audioSide {s : App} (h0 : s.call.callUserOperation = 0) :
    AudioSide s (buttonCall s) := by
  have h := postSocket_audioSide (m := .msg123) (by simp) s
  exact ⟨rfl, rfl, rfl, rfl, uart3Bytes_eq rfl rfl rfl rfl, rfl, rfl, rfl, rfl, h.reads,
    Or.inr ⟨h0, rfl⟩, Or.inl rfl⟩

/-- A marker is set, and message 127 posted. -/
theorem postMarker_audioSide {s : App} {c : Call} (hlist : c.mailList = s.call.mailList)
    (hid : c.mailListId = s.call.mailListId) (htim : c.callUserTim = s.call.callUserTim)
    (hall : c.isMailListALL = s.call.isMailListALL)
    (hop : c.callUserOperation = s.call.callUserOperation) :
    AudioSide s (App.postSocket .msg127 { s with call := c }) := by
  have h := postSocket_audioSide (m := .msg127) (by simp) s
  exact ⟨rfl, rfl, rfl, rfl, uart3Bytes_eq rfl rfl rfl rfl, hlist, hid, htim, hall, h.reads,
    Or.inl hop, Or.inl rfl⟩

theorem buttonBusy_audioSide (s : App) : AudioSide s (buttonBusy s) := by
  unfold buttonBusy
  dsimp only
  split
  · exact postMarker_audioSide rfl rfl rfl rfl rfl
  · split
    · exact postMarker_audioSide rfl rfl rfl rfl rfl
    · split
      · exact postMarker_audioSide rfl rfl rfl rfl rfl
      · split
        · exact postMarker_audioSide rfl rfl rfl rfl rfl
        · exact .refl s

theorem buttonFrame_audioSide (s : App) : AudioSide s (buttonFrame s) := by
  unfold buttonFrame
  split
  · exact .refl s
  · split
    · next h0 => exact buttonCall_audioSide h0
    · split
      · exact .refl s
      · exact buttonBusy_audioSide s

theorem uart3Frame_audioSide (s : App) : AudioSide s (uart3Frame s) := by
  unfold uart3Frame
  split
  · exact buttonFrame_audioSide s
  · split
    · exact postSocket_audioSide (by simp) s
    · split
      · exact postSocket_audioSide (by simp) s
      · split
        · exact postSocket_audioSide (by simp) s
        · exact .refl s

theorem readTemp_audioSide (io : Platform) (s : App) : AudioSide s (readTemp io s) :=
  .own rfl (Or.inl rfl)

theorem uart3Read_audioSide (io : Platform) (s : App) : AudioSide s (uart3Read io s) := by
  unfold uart3Read
  split
  · exact .refl s
  · split
    · exact (readTemp_audioSide io s).trans (uart3Frame_audioSide _)
    · exact readTemp_audioSide io s

theorem hmiPrompt_audioSide (f : Mp3File) (s : App) : AudioSide s (hmiPrompt f s) := by
  have hstart : AudioSide s { s with timerStart := false } := .own rfl (Or.inl rfl)
  have hpost : ∀ t : App, AudioSide t (t.postMp3 (.audio f)) := fun t => .own rfl (Or.inl rfl)
  exact (hstart.trans (audioStopV2_audioSide _)).trans (hpost _)

/-- **The audio thread.** -/
theorem audioDuplexthread_audioSide (io : Platform) (m : AudioMsg) (s : App) :
    AudioSide s (audioDuplexthread io m s) := by
  cases m with
  | uart3Read => exact uart3Read_audioSide io s
  | hmiNews2 => exact hmiPrompt_audioSide _ s
  | hmiNews3 => exact hmiPrompt_audioSide _ s
  | hmiNews4 => exact hmiPrompt_audioSide _ s
  | hmiNews => exact .own rfl (Or.inr rfl)
  | _ => exact .own rfl (Or.inl rfl)

theorem log_audioSide (o : Out) (s : App) : AudioSide s (s.log o) :=
  .own rfl (Or.inl rfl)

theorem OnlyPlays.audioSide {s t : App} (h : OnlyPlays s t) : AudioSide s t := by
  obtain ⟨f, os, rfl, -⟩ := h
  exact .own rfl (Or.inl rfl)

/-- **The prompt thread.** -/
theorem audioPlayMP3Thread_audioSide (io : Platform) (m : Mp3Msg) (s : App) :
    AudioSide s (audioPlayMP3Thread io m s) := by
  have hAudio : ∀ f, AudioSide s (mp3Audio io f s) := by
    intro f
    unfold mp3Audio
    split
    · exact .own rfl (Or.inl rfl)
    · exact ((log_audioSide _ s).trans (log_audioSide _ _)).trans (audioPlayMP3_onlyPlays io f _).audioSide
  cases m with
  | audio f => exact hAudio f
  | stop f => exact hAudio f
  | stopAudioStart =>
      unfold audioPlayMP3Thread
      dsimp only
      split <;> exact .own rfl (Or.inl rfl)

theorem audioRecordCb_audioSide (buff : Mem) (len : Nat) (s : App) :
    AudioSide s (audioRecordCb buff len s) := by
  unfold audioRecordCb
  split
  · exact .refl s
  · split
    · exact audioStopV2_audioSide s
    · refine .trans ?_ (postSocket_audioSide (by simp) _)
      exact .own rfl (Or.inl rfl)

theorem audioPlayCb_audioSide (s : App) : AudioSide s (audioPlayCb s).2 := by
  unfold audioPlayCb
  split
  · exact .refl s
  · exact .own rfl (Or.inl rfl)

end IntercomSalve
