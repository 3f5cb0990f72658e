/-
# `Supervision` — the connection as a machine of its own

The connection to the server is supervised by counters that `Timer_heartbeat`, the
socket events, four messages and the frames of the server move: the silence, the
log-in, the time a connection takes, the pause before the next one.  The record
`Link` holds them; `LinkEvent` is what can happen to it, and `LinkEvent.after` what
each event makes of it.

The source switches between two addresses where `new_ip_success` is set, in four
places; nothing ever sets it, and the machine has no switch.  `Steps.link_eq` says
that the firmware is this machine as long as the flag is not set, and `Runs.link_eq`
that it is this machine in every run from power-on.
-/
import IntercomSalve.Delivery

namespace IntercomSalve

open Goto

/-! ## The machine -/

/-- What can happen to the connection. -/
inductive LinkEvent where
  /-- nothing that concerns it -/
  | nothing
  /-- a second; `fd` is what `KING_SocketCreate` gives in it, where it is called -/
  | second (fd : Option Int)
  /-- a frame header is read -/
  | header
  /-- the header of a log-in answer -/
  | loggedIn
  /-- the header of a list of hosts -/
  | hosts
  /-- message 120 creates a socket -/
  | entered (fd : Int)
  /-- the descriptor is given up -/
  | dropped
  /-- message 130 -/
  | day (dd : UInt8)
  /-- `SOCKET_CONNECT_EVENT_RSP` -/
  | connected
  /-- `SOCKET_CLOSE_EVENT_RSP` -/
  | closed
  deriving DecidableEq

namespace Link

/-- A socket is created, and has ten seconds to connect. -/
def entered (fd : Int) (l : Link) : Link :=
  { l with socketFd := fd, socketContentTim := socketCloseTimTim }

/-- A second while logged in: the counters of the hosts and of the day. -/
def aliveSecond (l : Link) : Link :=
  if l.loginSuccess = 1 ∧ l.socketFd > 0 then
    { l with
      mailListTim :=
        if l.mailListTim = 1 then 2 else if l.mailListTim = 2 then 1 else l.mailListTim
      isOneDay :=
        if l.logonImei = 1 then (if (l.isOneDay + 1) % 20 = 0 then 0 else l.isOneDay + 1)
        else l.isOneDay }
  else l

/-- A second of the log-in. -/
def loginSecond (l : Link) : Link :=
  if l.socketEn = 1 ∧ l.loginSuccess = 0 ∧ l.loginTim ≠ 0 then { l with loginTim := l.loginTim + 1 }
  else l

/-- A second of a connection that is not there yet. -/
def contentSecond (l : Link) : Link :=
  if l.socketContentTim = 0 then l
  else
    { l with
      socketContentTim := l.socketContentTim - 1
      socketContentNum :=
        if l.socketContentTim - 1 = 0 then l.socketContentNum + 1 else l.socketContentNum }

/-- A second of the pause: when it is over the next socket is created, up to three times. -/
def closeSecond (fd : Option Int) (l : Link) : Link :=
  if l.socketCloseTim = 0 then l
  else if l.socketCloseTim - 1 = 0 then
    let l := { l with socketCloseTim := 0, socketCloseNum := l.socketCloseNum + 1 }
    match fd with
    | some fd => if l.socketCloseNum < socketCloseNumNum then l.entered fd else l
    | none => l
  else { l with socketCloseTim := l.socketCloseTim - 1 }

/-- A second. -/
def second (fd : Option Int) (l : Link) : Link :=
  (contentSecond (loginSecond (aliveSecond
    { l with heartbeatTim := l.heartbeatTim + 1 }))).closeSecond fd

/-- The silence is broken. -/
def heard (l : Link) : Link := { l with heartbeatTim := 0 }

end Link

/-- What an event makes of the connection. -/
def LinkEvent.after (e : LinkEvent) (l : Link) : Link :=
  match e with
  | nothing => l
  | second fd => l.second fd
  | header => l.heard
  | loggedIn => { l.heard with loginSuccess := 1, socketCloseNum := 0, socketContentNum := 0 }
  | hosts => { l.heard with mailListTim := 0, logonImei := 1 }
  | entered fd => l.entered fd
  | dropped => { l with socketFd := -1 }
  | day dd => { l with isNewDay := dd }
  | connected => { l with loginTim := 1, socketEn := 1, logonImei := 1, socketContentTim := 0 }
  | closed =>
      { l with
        socketFd := -1
        socketCloseTim := if l.socketCloseTim = 0 then socketCloseTimTim else l.socketCloseTim
        socketEn := 0, loginTim := 0, loginSuccess := 0, logonImei := 0 }

/-! ## Which event a step is -/

/-- The next pass of the loop reads a header. -/
def readsHeader (x : Sys) : Prop :=
  match x.atIsCmd with
  | some ret => x.app.rx.handleDeviation < ret ∧ headerAt x.app
  | none => False

instance (x : Sys) : Decidable (readsHeader x) := by
  unfold readsHeader
  split <;> infer_instance

/-- A pass of the loop. -/
def passLinkEvent (x : Sys) : LinkEvent :=
  if readsHeader x then
    match frameAt x with
    | some .instruction2 => .loggedIn
    | some .instruction21 => .hosts
    | _ => .header
  else .nothing

/-- A call in state 3 that lasts too long takes the connection with it, unless it has gone
silent. -/
def dropsLink (s : App) : Prop :=
  s.call.callUserOperation = 3 ∧ ¬ s.link.heartbeatTim > callReceptionTimeout ∧
    s.call.callUserTim + 1 > callMaxTim

instance (s : App) : Decidable (dropsLink s) := by unfold dropsLink; infer_instance

/-- A message of the socket thread. -/
def messageLinkEvent (io : Platform) (m : SocketMsg) (s : App) : LinkEvent :=
  match m with
  | .msg120 =>
      match io.socketFd with
      | some fd => .entered fd
      | none => .nothing
  | .msg121 => if io.socketSend 1 = -1 ∧ s.link.socketFd ≠ -1 then .dropped else .nothing
  | .msg126 => if dropsLink s then .dropped else .nothing
  | .msg130 => .day io.dd
  | _ => .nothing

/-- **The connection's event of a step.** -/
def linkEventOf (a : Act) (x : Sys) : LinkEvent :=
  match a with
  | .isCmd => passLinkEvent x
  | .socket io =>
      match x.app.socketMsgs with
      | m :: _ => messageLinkEvent io m x.app
      | [] => .nothing
  | .timerHeartbeat io => .second io.socketFd
  | .socketEvent .connectRsp => .connected
  | .socketEvent .closeRsp => .closed
  | .socketEvent .errorInd | .socketEvent .unexpected => .dropped
  | _ => .nothing

/-- The address is never switched. -/
def Link.NoSwitch (l : Link) : Prop := l.newIpSuccess = 0 ∧ l.newIpSuccess2 = 0

/-! ## The frames -/

theorem dial_link (s : App) : (dialReqReqCallReturnHander s).link = s.link := by
  unfold dialReqReqCallReturnHander dialBusy dialRefused
  repeat' split
  all_goals rfl

theorem called_link (s : App) : (calledReqReqCallReturnHander s).link = s.link := by
  unfold calledReqReqCallReturnHander calledAnswer calledHangUp
  repeat' split
  all_goals rfl

theorem voiceFrame_link (n ret : Nat) (s : App) : (voiceFrame n ret s).state.link = s.link := by
  unfold voiceFrame
  split <;> rfl

theorem broadcastFrame_link (ret : Nat) (s : App) :
    (broadcastFrame ret s).state.link = s.link := by
  have hvoice : ∀ t, (broadcastVoice ret t).state.link = t.link := by
    intro t
    have hv := voiceFrame_link 10 ret (setLength 80 t)
    unfold broadcastVoice
    split
    · next u hu =>
        rw [hu] at hv
        exact hv
    · next u hu =>
        rw [hu] at hv
        exact hv
  unfold broadcastFrame
  split
  · rw [hvoice]
    unfold broadcastStart
    split <;> rfl
  · show (broadcastStop (asVoice s)).link = _
    unfold broadcastStop
    split <;> rfl

theorem hostList_link (s : App) :
    (hostList s).link = { s.link with mailListTim := 0, logonImei := 1 } := by
  unfold hostList Call.hosts
  dsimp only
  split
  · split <;> rfl
  · rfl

theorem Link.NoSwitch.off {l : Link} (h : l.NoSwitch) : ¬ l.newIpSuccess = 1 := by
  rw [h.1]
  decide

/-- The log-in, without the switch. -/
theorem Link.NoSwitch.loggedIn {l : Link} (h : l.NoSwitch) :
    l.loggedIn = { l with loginSuccess := 1, socketCloseNum := 0, socketContentNum := 0 } := by
  have hoff : ¬ (l.newIpSuccess = 1 ∧ l.newIpSuccess2 ≠ 1) := fun hon => h.off hon.1
  unfold Link.loggedIn
  rw [if_neg hoff, if_neg hoff]

/-- The case of a frame. -/
theorem caseOf_link {s : App} (h : s.link.NoSwitch) (ret : Nat) (c : SocketInstruction) :
    (caseOf ret c s).state.link =
      match c with
      | .instruction2 =>
          { s.link with loginSuccess := 1, socketCloseNum := 0, socketContentNum := 0 }
      | .instruction21 => { s.link with mailListTim := 0, logonImei := 1 }
      | _ => s.link := by
  cases c with
  | instruction2 => exact h.loggedIn
  | instruction4 => exact dial_link s
  | instruction5 => exact called_link s
  | instruction10 => exact voiceFrame_link 8 ret s
  | instruction21 => exact hostList_link s
  | instruction34 => exact broadcastFrame_link ret s
  | _ => rfl

/-- **A pass of the loop.** -/
theorem isCmd_link {s : App} (h : s.link.NoSwitch) (ret : Nat) :
    (isCmd ret s).state.link = (passLinkEvent ⟨s, some ret⟩).after s.link := by
  unfold isCmd passLinkEvent
  by_cases hlt : s.rx.handleDeviation < ret
  · rw [if_pos hlt]
    by_cases hh : headerAt s
    · have hreads : readsHeader ⟨s, some ret⟩ := ⟨hlt, hh⟩
      rw [if_pos hh, if_pos hreads, frameAt_some hlt hh]
      cases hc : caseAt s with
      | some c =>
          have hopened : (opened c s).link.NoSwitch := h
          rw [dispatch_some hc, caseOf_link hopened]
          cases c <;> rfl
      | none =>
          rw [dispatch_none hc]
          rfl
    · rw [if_neg hh, if_neg fun hreads => hh hreads.2]
      rfl
  · rw [if_neg hlt, if_neg fun hreads => hlt hreads.1]
    rfl

theorem message122_link (n : Nat) (chunk : List UInt8) (s : App) :
    (message122 n chunk s).state.link = s.link := by
  unfold message122
  split
  · rfl
  · split
    · unfold resumeVoice
      split
      · split <;> rfl
      · rfl
    · rfl

/-! ## The other messages of the socket thread -/

theorem sendHandle_link (n : Nat) (s : App) : (sendHandle n s).link = s.link := rfl

theorem poke_link (i : Nat) (bs : List UInt8) (s : App) : (poke i bs s).link = s.link := rfl

theorem pokeFrom_link (i : Nat) (src : Mem) (n : Nat) (s : App) :
    (pokeFrom i src n s).link = s.link := rfl

theorem message129_link (io : Platform) (s : App) : (message129 io s).link = s.link := by
  unfold message129 alarmFrame
  simp only [sendHandle_link, poke_link, pokeFrom_link]

theorem countFrame_link (io : Platform) (id : UInt8) (a b : Mem) (s : App) :
    (countFrame io id a b s).link = s.link := by
  unfold countFrame
  simp only [sendHandle_link, poke_link, pokeFrom_link]

theorem audioStopV2_link (s : App) : (audioStopV2 s).link = s.link := by
  unfold audioStopV2
  split <;> rfl

theorem message121_link (io : Platform) (s : App) :
    (message121 io s).link = (messageLinkEvent io .msg121 s).after s.link := by
  by_cases h : io.socketSend 1 = -1 ∧ s.link.socketFd ≠ -1
  · have hdrop : message121 io s =
        dropSocket ((sendHandle 8 (poke 5 [0x01, 0, 0x0f] s)).socketSend io.sysImei 15) := if_pos h
    rw [hdrop, messageLinkEvent, if_pos h]
    rfl
  · have hkeep : message121 io s =
        (sendHandle 8 (poke 5 [0x01, 0, 0x0f] s)).socketSend io.sysImei 15 := if_neg h
    rw [hkeep, messageLinkEvent, if_neg h]
    rfl

/-- A call in state 3. -/
theorem connectedQuiet_end_link (io : Platform) (s : App) :
    (connectedEnd io (connectedQuiet s)).link =
      if ¬ s.link.heartbeatTim > callReceptionTimeout ∧ s.call.callUserTim > callMaxTim then
        { s.link with socketFd := -1 }
      else s.link := by
  by_cases hq : s.link.heartbeatTim > callReceptionTimeout
  · have hquiet : connectedQuiet s = overtimeClose (s.log .socketClose) := if_pos hq
    have hend : connectedEnd io (connectedQuiet s) = connectedQuiet s := by
      rw [hquiet]
      exact if_neg (overtimeClose_tim _)
    rw [hend, hquiet, if_neg fun h => h.1 hq]
    rfl
  · have hquiet : connectedQuiet s = s := if_neg hq
    rw [hquiet]
    unfold connectedEnd
    by_cases hmax : s.call.callUserTim > callMaxTim
    · rw [if_pos hmax, if_pos ⟨hq, hmax⟩]
      rfl
    · rw [if_neg hmax, if_neg fun h => hmax h.2]

/-- **Message 126.** -/
theorem callOvertimeFun_link (io : Platform) (s : App) :
    (callOvertimeFun io s).link = (messageLinkEvent io .msg126 s).after s.link := by
  have hkeep : s.call.callUserOperation ≠ 3 →
      (messageLinkEvent io .msg126 s).after s.link = s.link := by
    intro h3
    rw [messageLinkEvent, if_neg fun h => h3 h.1]
    rfl
  unfold callOvertimeFun overtimeOf
  split
  · next h1 =>
      have h1 : s.call.callUserOperation = 1 := h1
      rw [hkeep (by rw [h1]; decide)]
      unfold callingEnd callingRepeat
      repeat' split
      all_goals rfl
  · split
    · next h2 =>
        have h2 : s.call.callUserOperation = 2 := h2
        rw [hkeep (by rw [h2]; decide)]
        unfold ringingEnd ringingSwitch
        repeat' split
        all_goals rfl
    · split
      · next h3 =>
          have h3 : s.call.callUserOperation = 3 := h3
          rw [connectedQuiet_end_link, messageLinkEvent]
          by_cases hdrop : dropsLink s
          · rw [if_pos hdrop]
            exact if_pos hdrop.2
          · rw [if_neg hdrop]
            exact if_neg fun h => hdrop ⟨h3, h⟩
      · next h3 =>
          rw [hkeep h3]
          split
          · unfold calledEnd calledQuiet
            repeat' split
            all_goals rfl
          · rfl

/-- **The socket thread**, outside message 122. -/
theorem socketTestThread_link (io : Platform) (m : SocketMsg) (s : App) :
    (socketTestThread io m s).link = (messageLinkEvent io m s).after s.link := by
  cases m with
  | msg120 =>
      show (socketEnter io (waitForNet _ _ s)).link = _
      rw [waitForNet_eq]
      unfold socketEnter messageLinkEvent
      cases io.socketFd <;> rfl
  | msg121 => exact message121_link io s
  | msg124 =>
      show (message124 io s).link = s.link
      unfold message124
      split <;> rfl
  | msg125 =>
      show (message125 io s).link = s.link
      unfold message125
      split <;> rfl
  | msg126 => exact callOvertimeFun_link io s
  | msg130 =>
      have hday : (newDay io s).link = s.link := by
        unfold newDay
        split <;> rfl
      exact congrArg (fun l : Link => { l with isNewDay := io.dd }) hday
  | msg129 => exact message129_link io s
  | msg131 => exact (countFrame_link io _ _ _ _).trans (countFrame_link io _ _ _ s)
  | msg133 =>
      show (message133 s).link = s.link
      unfold message133
      split
      · exact audioStopV2_link _
      · rfl
  | _ => rfl

/-! ## The timer -/

theorem timerHosts_link_eq (s : App) :
    (timerHosts s).link = { s.link with
      mailListTim := if s.link.mailListTim = 1 then 2 else if s.link.mailListTim = 2 then 1
        else s.link.mailListTim } := by
  have hrange : ∀ t : UInt8, t ≠ 0 ∧ t < 3 ↔ t = 1 ∨ t = 2 := by
    intro t
    simp only [ne_eq, ← UInt8.toNat_inj, UInt8.lt_iff_toNat_lt]
    show ¬ t.toNat = 0 ∧ t.toNat < 3 ↔ t.toNat = 1 ∨ t.toNat = 2
    omega
  have hpost : ∀ t : UInt8, (if t = 1 ∨ t = 2 then if t + 1 = 3 then 1 else t + 1 else t) =
      if t = 1 then 2 else if t = 2 then 1 else t := by
    intro t
    by_cases h1 : t = 1
    · rw [h1]
      decide
    · by_cases h2 : t = 2
      · rw [h2]
        decide
      · rw [if_neg h1, if_neg h2, if_neg (not_or.mpr ⟨h1, h2⟩)]
  rw [← hpost]
  unfold timerHosts
  split
  · next h =>
      rw [if_pos ((hrange _).mp h)]
      split <;> rfl
  · next h => rw [if_neg fun h' => h ((hrange _).mpr h')]

theorem timerDay_link_eq (s : App) :
    (timerDay s).link = { s.link with
      isOneDay := if (s.link.isOneDay + 1) % 20 = 0 then 0 else s.link.isOneDay + 1 } := by
  unfold timerDay
  split <;> rfl

theorem timerLoggedIn_link_eq (s : App) : (timerLoggedIn s).link = s.link.aliveSecond := by
  unfold timerLoggedIn Link.aliveSecond
  split
  · split
    · rw [timerAlive_link, timerBusy_link, timerDay_link_eq, timerHosts_link_eq]
    · exact timerHosts_link_eq s
  · rfl

theorem timerLogin_link {s : App} (h : s.link.NoSwitch) :
    (timerLogin s).link = s.link.loginSecond := by
  have hoff : ∀ t : UInt8, ¬ (s.link.newIpSuccess = 1 ∧ t = 0) := fun t hon => h.off hon.1
  unfold timerLogin Link.loginSecond
  split
  · unfold loginSecond
    split
    · show (if s.link.newIpSuccess = 1 ∧ s.link.newIpSuccess2 = 0 then _ else _ : App).link = _
      rw [if_neg (hoff _)]
    · split <;> rfl
  · rfl

theorem timerContent_link {s : App} (h : s.link.NoSwitch) :
    (timerContent s).link = s.link.contentSecond := by
  have hoff : ∀ t : UInt8, ¬ (s.link.newIpSuccess = 1 ∧ t = 0) := fun t hon => h.off hon.1
  unfold timerContent Link.contentSecond
  split
  · rfl
  · split
    · next hend =>
        unfold contentOver
        split
        · rw [hend]
          rfl
        · show (if s.link.newIpSuccess = 1 ∧ s.link.newIpSuccess2 = 0 then _ else _ : App).link = _
          rw [if_neg (hoff _), hend]
    · rfl

theorem timerClose_link {s : App} (h : s.link.NoSwitch) (io : Platform) :
    (timerClose io s).link = s.link.closeSecond io.socketFd := by
  have hoff : ∀ t : UInt8, ¬ (s.link.newIpSuccess = 1 ∧ t = 0) := fun t hon => h.off hon.1
  unfold timerClose Link.closeSecond
  split
  · rfl
  · split
    · unfold closeOver
      split
      · next hnum =>
          have hnum : s.link.socketCloseNum + 1 < socketCloseNumNum := hnum
          unfold socketEnter
          cases io.socketFd with
          | none => rfl
          | some fd =>
              simp only [hnum, if_true]
              rfl
      · next hnum =>
          have hnum : ¬ s.link.socketCloseNum + 1 < socketCloseNumNum := hnum
          show (if s.link.newIpSuccess = 1 ∧ s.link.newIpSuccess2 = 0 then _ else _ : App).link = _
          rw [if_neg (hoff _)]
          cases io.socketFd with
          | none => rfl
          | some fd => simp only [hnum, if_false]
    · rfl

theorem Link.aliveSecond_noSwitch {l : Link} (h : l.NoSwitch) : l.aliveSecond.NoSwitch := by
  unfold Link.aliveSecond
  split
  · exact h
  · exact h

theorem Link.loginSecond_noSwitch {l : Link} (h : l.NoSwitch) : l.loginSecond.NoSwitch := by
  unfold Link.loginSecond
  split
  · exact h
  · exact h

theorem Link.contentSecond_noSwitch {l : Link} (h : l.NoSwitch) : l.contentSecond.NoSwitch := by
  unfold Link.contentSecond
  split
  · exact h
  · exact h

theorem Link.closeSecond_noSwitch {l : Link} (h : l.NoSwitch) (fd : Option Int) :
    (l.closeSecond fd).NoSwitch := by
  unfold Link.closeSecond
  split
  · exact h
  · split
    · cases fd with
      | none => exact h
      | some fd =>
          dsimp only
          split
          · exact h
          · exact h
    · exact h

/-- **The timer.** -/
theorem timerHeartbeat_link {s : App} (h : s.link.NoSwitch) (io : Platform) :
    (timerHeartbeat io s).link = s.link.second io.socketFd := by
  have hbegun : (secondBegun s).link.NoSwitch := by
    rw [secondBegun_link]
    exact h
  have halive : (timerLoggedIn (secondBegun s)).link.NoSwitch := by
    rw [timerLoggedIn_link_eq]
    exact Link.aliveSecond_noSwitch hbegun
  have hlogin : (timerLogin (timerLoggedIn (secondBegun s))).link.NoSwitch := by
    rw [timerLogin_link halive]
    exact Link.loginSecond_noSwitch halive
  have hcontent : (timerContent (timerLogin (timerLoggedIn (secondBegun s)))).link.NoSwitch := by
    rw [timerContent_link hlogin]
    exact Link.contentSecond_noSwitch hlogin
  show (timerClose io (timerContent (timerLogin (timerLoggedIn (secondBegun s))))).link = _
  rw [timerClose_link hcontent, timerContent_link hlogin, timerLogin_link halive,
    timerLoggedIn_link_eq, secondBegun_link]
  rfl

/-! ## The step, and the run -/

/-- **The firmware is the machine**, as long as the address is not switched. -/
theorem Steps.link_eq {x y : Sys} {a : Act} (h : Steps x a y) (hx : x.app.link.NoSwitch) :
    y.app.link = (linkEventOf a x).after x.app.link := by
  cases h with
  | isCmd =>
      rw [Sys.ofJump_app]
      exact isCmd_link hx _
  | recv _ _ =>
      rw [Sys.ofJump_app]
      exact message122_link _ _ _
  | @socket s m ms io hms _ =>
      simp only [linkEventOf, hms]
      exact socketTestThread_link io m { s with socketMsgs := ms }
  | @audio s m ms io _ => exact (audioDuplexthread_audioSide io m _).link
  | @mp3 s m ms io _ => exact (audioPlayMP3Thread_audioSide io m _).link
  | @timerHeartbeat s io =>
      simp only [linkEventOf, LinkEvent.after]
      exact timerHeartbeat_link hx io
  | @socketEvent s e => cases e <;> rfl
  | @audioRecordCb s buff len => exact (audioRecordCb_audioSide buff len s).link
  | @audioPlayCb s => exact (audioPlayCb_audioSide s).link
  | timerHeartbeat2 _ | uart2Event | uart3Event => rfl

theorem LinkEvent.after_noSwitch (e : LinkEvent) {l : Link} (h : l.NoSwitch) :
    (e.after l).NoSwitch := by
  cases e with
  | second fd =>
      refine Link.closeSecond_noSwitch (Link.contentSecond_noSwitch (Link.loginSecond_noSwitch
        (Link.aliveSecond_noSwitch ?_))) fd
      exact h
  | _ => exact h

theorem Reachable.noSwitch {x : Sys} (h : Reachable x) : x.app.link.NoSwitch := by
  refine h.invariant (I := fun x => x.app.link.NoSwitch) ⟨rfl, rfl⟩ ?_
  intro x a y hx hstep
  rw [hstep.link_eq hx]
  exact (linkEventOf a x).after_noSwitch hx

/-- The connection's events of a run, in order. -/
def linkEventsOf (l : List (Run.Step Act Sys)) : List LinkEvent :=
  l.map fun e => linkEventOf e.act e.pre

/-- **Runs.**  In every run from power-on the connection is what its events, in order, make of
the first one; the address is never switched. -/
theorem Runs.link_eq {y : Sys} {l : List (Run.Step Act Sys)} (hr : Run.Runs exec Sys.init l y) :
    y.app.link = (linkEventsOf l).foldl (fun k e => e.after k) App.init.link ∧
      y.app.link.NoSwitch := by
  have hreach : ∀ {z : Sys} {t : List (Run.Step Act Sys)}, Run.Runs exec Sys.init t z →
      z.app.link.NoSwitch := by
    intro z t ht
    have hz : Reachable z := ⟨t, ht⟩
    exact hz.noSwitch
  refine ⟨?_, hreach hr⟩
  induction hr with
  | nil => rfl
  | snoc hr he ih =>
      rw [(exec_eq_some.mp he).link_eq (hreach hr), ih, linkEventsOf, linkEventsOf, List.map_append,
        List.foldl_append]
      rfl

end IntercomSalve
