/-
# `Watchdog` — silence, reconnection and log-in over whole runs

The counters of the connection are eight bits wide and are reset from several places.
Here they are compared with what they count, over every run from power-on:
`heartbeat_tim` with the seconds since the last frame header (`heartbeatTim_eq`),
`socket_close_num` with the pauses since the last log-in (`socketCloseNum_eq`), and
`login_tim` with the log-in messages a connection has still to come (`loginsLeft`).

So these threads start the device again exactly when nothing was heard for too long, or no
network was found at the start (`reboots_iff`); the timer opens a connection exactly for the
first three pauses after a log-in, and those that the counter takes for them
(`reconnects_iff`); and a connection brings at most five log-in messages (`logins_le`): four
in its first half minute, and a fifth when the counter wraps.

`Fota_test` starts the device again as well, in a thread of its own (`Upgrade`), and so does
the choice of the SIM at power-on, before there is another thread; neither is a step here.
-/
import IntercomSalve.Supervision

namespace IntercomSalve

open Goto

/-! ## Silence -/

/-- A frame header is read. -/
def LinkEvent.isHeader : LinkEvent → Bool
  | .header | .loggedIn | .hosts => true
  | _ => false

/-- The seconds of silence, after an event. -/
def LinkEvent.silence (e : LinkEvent) (n : Nat) : Nat :=
  match e with
  | .second _ => n + 1
  | _ => if e.isHeader then 0 else n

/-- The seconds since the last header, or since power-on. -/
def silence (l : List (Run.Step Act Sys)) : Nat :=
  (linkEventsOf l).foldl (fun n e => e.silence n) 0

/-! ## What the parts of a second move -/

namespace Link

theorem aliveSecond_moves (l : Link) :
    ∃ t d, l.aliveSecond = { l with mailListTim := t, isOneDay := d } := by
  unfold aliveSecond
  split <;> exact ⟨_, _, rfl⟩

theorem loginSecond_moves (l : Link) : ∃ t, l.loginSecond = { l with loginTim := t } := by
  unfold loginSecond
  split <;> exact ⟨_, rfl⟩

theorem contentSecond_moves (l : Link) :
    ∃ t n, l.contentSecond = { l with socketContentTim := t, socketContentNum := n } := by
  unfold contentSecond
  split <;> exact ⟨_, _, rfl⟩

theorem closeSecond_moves (fd : Option Int) (l : Link) :
    ∃ fd' c t n, l.closeSecond fd = { l with
      socketFd := fd', socketContentTim := c, socketCloseTim := t, socketCloseNum := n } := by
  unfold closeSecond
  split
  · exact ⟨_, _, _, _, rfl⟩
  · split
    · cases fd with
      | none => exact ⟨_, _, _, _, rfl⟩
      | some fd =>
          dsimp only
          split <;> exact ⟨_, _, _, _, rfl⟩
    · exact ⟨_, _, _, _, rfl⟩

/-- The connection when the pause of a second is looked at. -/
def beforeClose (l : Link) : Link :=
  contentSecond (loginSecond (aliveSecond { l with heartbeatTim := l.heartbeatTim + 1 }))

theorem second_eq (fd : Option Int) (l : Link) : l.second fd = l.beforeClose.closeSecond fd := rfl

/-- Up to there the pause has not moved. -/
theorem beforeClose_moves (l : Link) :
    ∃ m d t c n, l.beforeClose = { l with
      heartbeatTim := l.heartbeatTim + 1, mailListTim := m, isOneDay := d, loginTim := t
      socketContentTim := c, socketContentNum := n } := by
  obtain ⟨m, d, h1⟩ := aliveSecond_moves { l with heartbeatTim := l.heartbeatTim + 1 }
  obtain ⟨t, h2⟩ := loginSecond_moves (aliveSecond { l with heartbeatTim := l.heartbeatTim + 1 })
  obtain ⟨c, n, h3⟩ := contentSecond_moves
    (loginSecond (aliveSecond { l with heartbeatTim := l.heartbeatTim + 1 }))
  refine ⟨m, d, t, c, n, ?_⟩
  unfold beforeClose
  rw [h3, h2, h1]

theorem second_heartbeatTim (fd : Option Int) (l : Link) :
    (l.second fd).heartbeatTim = l.heartbeatTim + 1 := by
  obtain ⟨_, _, _, _, hclose⟩ := closeSecond_moves fd l.beforeClose
  obtain ⟨_, _, _, _, _, hbefore⟩ := beforeClose_moves l
  rw [second_eq, hclose, hbefore]

end Link

/-! ## The watchdog -/

theorem LinkEvent.after_heartbeatTim (e : LinkEvent) {l : Link} {n : Nat}
    (h : l.heartbeatTim = UInt8.ofNat n) :
    (e.after l).heartbeatTim = UInt8.ofNat (e.silence n) := by
  cases e with
  | second fd =>
      show (l.second fd).heartbeatTim = UInt8.ofNat (n + 1)
      rw [Link.second_heartbeatTim, h, UInt8.ofNat_add]
      rfl
  | header => rfl
  | loggedIn => rfl
  | hosts => rfl
  | _ => exact h

/-- **The silence.**  `heartbeat_tim` is the seconds since the last header, in eight bits. -/
theorem heartbeatTim_eq {y : Sys} {l : List (Run.Step Act Sys)}
    (hr : Run.Runs exec Sys.init l y) :
    y.app.link.heartbeatTim = UInt8.ofNat (silence l) := by
  rw [(Runs.link_eq hr).1]
  unfold silence
  generalize linkEventsOf l = es
  induction es using List.reverseRecOn with
  | nil => rfl
  | append_singleton es e ih =>
      rw [List.foldl_append, List.foldl_append]
      exact e.after_heartbeatTim ih

/-- A second of the timer. -/
def isSecond (e : Run.Step Act Sys) : Bool :=
  match e.act with
  | .timerHeartbeat _ => true
  | _ => false

/-- The step starts the device again. -/
def reboots (e : Run.Step Act Sys) : Prop :=
  e.post.app.out.count .powerReboot ≠ e.pre.app.out.count .powerReboot

instance (e : Run.Step Act Sys) : Decidable (reboots e) := by unfold reboots; infer_instance

theorem Event.posts_control (e : Event) (s : App) : (e.posts s).control = [] := by
  cases e with
  | timedOut =>
      show (timedOutPosts s).control = []
      unfold timedOutPosts
      split <;> rfl
  | _ => rfl

/-- The socket thread waits for the network with message 120, and does not find it in ten tries. -/
def startsLate (e : Run.Step Act Sys) : Bool :=
  match e.act, e.pre.app.socketMsgs with
  | .socket io, .msg120 :: _ => decide (10 ≤ io.netWaits)
  | _, _ => false

/-- Most steps do not start the device again. -/
theorem postsOf_noReboot (a : Act) (x : Sys) (h : ∀ io, a ≠ .timerHeartbeat io)
    (h120 : ∀ io ms, a = .socket io → x.app.socketMsgs ≠ .msg120 :: ms) :
    (postsOf a x).control.count .powerReboot = 0 := by
  cases a with
  | isCmd =>
      simp only [postsOf]
      cases frameAt x with
      | none => rfl
      | some c =>
          cases c with
          | instruction2 => rfl
          | instruction29 => rfl
          | instruction32 => rfl
          | _ =>
              refine List.count_eq_zero.mpr ?_
              simp only [framePosts, Event.posts_control, List.not_mem_nil, not_false_eq_true]
  | socket io =>
      simp only [postsOf]
      cases hms : x.app.socketMsgs with
      | nil => rfl
      | cons m ms =>
          refine List.count_eq_zero.mpr ?_
          cases m with
          | msg120 => exact absurd hms (h120 io ms rfl)
          | msg130 =>
              unfold messagePosts
              dsimp only
              split <;> exact List.not_mem_nil
          | _ => simp only [messagePosts, Event.posts_control, List.not_mem_nil, not_false_eq_true]
  | audio io =>
      simp only [postsOf]
      cases x.app.audioMsgs with
      | nil => rfl
      | cons m ms =>
          cases m with
          | uart3Read =>
              simp only [audioPosts]
              unfold uart3Posts markerPosts
              repeat' split
              all_goals rfl
          | _ => rfl
  | mp3 io =>
      simp only [postsOf]
      cases x.app.mp3Msgs with
      | nil => rfl
      | cons m ms => cases m <;> rfl
  | timerHeartbeat io => exact absurd rfl (h io)
  | socketEvent e => cases e <;> rfl
  | audioRecordCb buff len => simp only [postsOf, Event.posts_control, List.count_nil]
  | _ => rfl

/-- Only the timer and the wait for the network start the device again. -/
theorem postsOf_reboot (a : Act) (x y : Sys) (h : ∀ io, a ≠ .timerHeartbeat io) :
    0 < (postsOf a x).control.count .powerReboot ↔ startsLate ⟨x, a, y⟩ = true := by
  by_cases hlate : ∃ io ms, a = .socket io ∧ x.app.socketMsgs = .msg120 :: ms
  · obtain ⟨io, ms, rfl, hms⟩ := hlate
    simp only [postsOf, startsLate, hms, decide_eq_true_eq]
    show 0 < (List.replicate (netReboots io.netWaits 0) Out.powerReboot).count .powerReboot ↔ _
    rw [List.count_replicate_self]
    exact netReboots_pos (Nat.zero_le _)
  · have hnot : startsLate ⟨x, a, y⟩ = false := by
      unfold startsLate
      split
      · next io ms ha hms => exact absurd ⟨io, ms, ha, hms⟩ hlate
      · rfl
    rw [hnot, postsOf_noReboot a x h fun io ms ha hms => hlate ⟨io, ms, ha, hms⟩]
    simp

theorem count_reboot (s : App) :
    (s.out.filter Out.isControl).count .powerReboot = s.out.count .powerReboot :=
  List.count_filter rfl

/-- A step adds the calls to `KING_PowerReboot` that it posts. -/
theorem Steps.count_reboot {x y : Sys} {a : Act} (h : Steps x a y) :
    y.app.out.count .powerReboot =
      x.app.out.count .powerReboot + (postsOf a x).control.count .powerReboot := by
  have hcontrol : x.app.out.filter Out.isControl ++ (postsOf a x).control =
      y.app.out.filter Out.isControl :=
    controlCalls.step (exec_eq_some.mpr h)
  rw [← IntercomSalve.count_reboot y.app, ← hcontrol, List.count_append,
    IntercomSalve.count_reboot]

theorem ofNat_succ_gt (n : Nat) : UInt8.ofNat n + 1 > 130 ↔ 130 < (n + 1) % 256 := by
  rw [gt_iff_lt, UInt8.lt_iff_toNat_lt, UInt8.toNat_add, UInt8.toNat_ofNat']
  show 130 < (n % 256 + 1) % 256 ↔ _
  rw [Nat.mod_add_mod]

/-- **The watchdog.**  In every run from power-on a step starts the device again exactly if it
is a second of the timer and nothing was heard for more than 130 s, the silence counted modulo
256; or if it is the wait for the network, and that takes more than ten tries. -/
theorem reboots_iff {y : Sys} {l : List (Run.Step Act Sys)} (hr : Run.Runs exec Sys.init l y)
    {l₁ l₂ : List (Run.Step Act Sys)} {e : Run.Step Act Sys} (hl : l = l₁ ++ e :: l₂) :
    reboots e ↔
      isSecond e = true ∧ 130 < (silence l₁ + 1) % 256 ∨ startsLate e = true := by
  obtain ⟨hr₁, he⟩ := hr.before hl
  have hstep := exec_eq_some.mp he
  have hcount := hstep.count_reboot
  have hbeat := heartbeatTim_eq hr₁
  obtain ⟨x, a, z⟩ := e
  have hmore : reboots ⟨x, a, z⟩ ↔ 0 < (postsOf a x).control.count .powerReboot := by
    have hcount : z.app.out.count .powerReboot = x.app.out.count .powerReboot +
        (postsOf a x).control.count .powerReboot := hcount
    show z.app.out.count .powerReboot ≠ x.app.out.count .powerReboot ↔ _
    omega
  rw [hmore]
  by_cases hsecond : ∃ io, a = .timerHeartbeat io
  · obtain ⟨io, rfl⟩ := hsecond
    have hposts : (postsOf (.timerHeartbeat io) x).control.count .powerReboot =
        if 130 < (silence l₁ + 1) % 256 then 1 else 0 := by
      show (if x.app.link.heartbeatTim + 1 > 130 then [Out.powerReboot] else []).count _ = _
      have hbeat : x.app.link.heartbeatTim = UInt8.ofNat (silence l₁) := hbeat
      rw [hbeat]
      simp only [ofNat_succ_gt]
      split <;> rfl
    have hnot : startsLate ⟨x, .timerHeartbeat io, z⟩ = false := rfl
    have hpos : 0 < (if 130 < (silence l₁ + 1) % 256 then 1 else 0) ↔
        130 < (silence l₁ + 1) % 256 := by
      split <;> omega
    rw [hposts, hpos, hnot]
    simp [isSecond]
  · have hno : ∀ io, a ≠ .timerHeartbeat io := fun io h => hsecond ⟨io, h⟩
    have hnot : isSecond ⟨x, a, z⟩ = false := by
      cases a with
      | timerHeartbeat io => exact absurd rfl (hno io)
      | _ => rfl
    rw [postsOf_reboot a x z hno, hnot]
    simp

/-- Nothing is ever heard: the device starts again after 131 s. -/
theorem silence_reboots :
    ∃ l₁ e y, Run.Runs exec Sys.init (l₁ ++ [e]) y ∧ silence l₁ = 130 ∧ reboots e := by
  obtain ⟨l₁, ⟨s, pc⟩, hr, hq⟩ :=
    Runs.of_acts_test (l := List.replicate 130 (.timerHeartbeat Platform.silent))
      (q := fun l x => decide (silence l = 130) && decide (x.atIsCmd = none)) (by decide +kernel)
  rw [Bool.and_eq_true, decide_eq_true_eq, decide_eq_true_eq] at hq
  obtain ⟨hsilence, hpc⟩ := hq
  have hpc : pc = none := hpc
  subst hpc
  have hstep : Steps ⟨s, none⟩ (.timerHeartbeat Platform.silent)
      ⟨timerHeartbeat Platform.silent s, none⟩ := .timerHeartbeat
  have hrun := hr.snoc (exec_eq_some.mpr hstep)
  refine ⟨l₁, _, _, hrun, hsilence, (reboots_iff hrun rfl).mpr (Or.inl ⟨rfl, ?_⟩)⟩
  rw [hsilence]
  decide

/-! ## Reconnection -/

/-- The pause ends with this step. -/
def pauseEnds (e : Run.Step Act Sys) : Bool :=
  isSecond e && e.pre.app.link.socketCloseTim == 1

/-- The pauses since the last log-in, after a step. -/
def pausesAfter (n : Nat) (e : Run.Step Act Sys) : Nat :=
  if linkEventOf e.act e.pre = .loggedIn then 0 else if pauseEnds e then n + 1 else n

/-- The pauses that have ended since the last log-in. -/
def pauses (l : List (Run.Step Act Sys)) : Nat := l.foldl pausesAfter 0

theorem pauses_snoc (l : List (Run.Step Act Sys)) (e : Run.Step Act Sys) :
    pauses (l ++ [e]) = pausesAfter (pauses l) e := by
  simp [pauses]

theorem sub_one_eq_zero {t : UInt8} : t - 1 = 0 ↔ t = 1 := by
  rw [UInt8.sub_eq_iff_eq_add]
  rfl

namespace Link

/-- The number of pauses, after a second. -/
theorem second_socketCloseNum (fd : Option Int) (l : Link) :
    (l.second fd).socketCloseNum =
      if l.socketCloseTim = 1 then l.socketCloseNum + 1 else l.socketCloseNum := by
  obtain ⟨_, _, _, _, _, hbefore⟩ := beforeClose_moves l
  rw [second_eq, hbefore]
  unfold closeSecond
  by_cases h0 : l.socketCloseTim = 0
  · rw [if_pos h0, if_neg (by rw [h0]; decide)]
  · rw [if_neg h0]
    by_cases h1 : l.socketCloseTim = 1
    · rw [if_pos (sub_one_eq_zero.mpr h1), if_pos h1]
      cases fd with
      | none => rfl
      | some fd =>
          dsimp only
          split <;> rfl
    · rw [if_neg (sub_one_eq_zero.not.mpr h1), if_neg h1]

end Link

theorem ofNat_succ (n : Nat) : UInt8.ofNat n + 1 = UInt8.ofNat (n + 1) := (UInt8.ofNat_add n 1).symm

theorem LinkEvent.after_socketCloseNum (e : LinkEvent) (l : Link) (hfd : ∀ fd, e ≠ .second fd) :
    (e.after l).socketCloseNum = if e = .loggedIn then 0 else l.socketCloseNum := by
  cases e with
  | second fd => exact absurd rfl (hfd fd)
  | _ => rfl

theorem messageLinkEvent_ne_second (io : Platform) (m : SocketMsg) (s : App) (fd : Option Int) :
    messageLinkEvent io m s ≠ .second fd := by
  unfold messageLinkEvent
  repeat' split
  all_goals simp

/-- A second of the connection is one of the timer. -/
theorem linkEventOf_second {a : Act} {x : Sys} {fd : Option Int}
    (h : linkEventOf a x = .second fd) : ∃ io, a = .timerHeartbeat io ∧ io.socketFd = fd := by
  cases a with
  | isCmd =>
      simp only [linkEventOf, passLinkEvent] at h
      repeat' split at h
      all_goals cases h
  | socket io =>
      simp only [linkEventOf] at h
      split at h
      · exact absurd h (messageLinkEvent_ne_second _ _ _ _)
      · cases h
  | timerHeartbeat io => exact ⟨io, rfl, LinkEvent.second.inj h⟩
  | socketEvent e => cases e <;> cases h
  | _ => cases h

/-- Outside the seconds only a log-in moves the number of pauses. -/
theorem Steps.socketCloseNum_eq {x y : Sys} {a : Act} (h : Steps x a y)
    (hx : x.app.link.NoSwitch) {n : Nat} (hn : x.app.link.socketCloseNum = UInt8.ofNat n) :
    y.app.link.socketCloseNum = UInt8.ofNat (pausesAfter n ⟨x, a, y⟩) := by
  rw [h.link_eq hx]
  unfold pausesAfter
  dsimp only
  by_cases hsecond : ∃ fd, linkEventOf a x = .second fd
  · obtain ⟨fd, hfd⟩ := hsecond
    obtain ⟨io, rfl, -⟩ := linkEventOf_second hfd
    rw [hfd, if_neg (by simp)]
    show (x.app.link.second fd).socketCloseNum = _
    rw [Link.second_socketCloseNum, hn, ofNat_succ]
    simp only [pauseEnds, isSecond, Bool.true_and, beq_iff_eq]
    split <;> rfl
  · have hfd : ∀ fd, linkEventOf a x ≠ .second fd := fun fd h => hsecond ⟨fd, h⟩
    rw [LinkEvent.after_socketCloseNum _ _ hfd]
    split
    · rfl
    · have hno : pauseEnds ⟨x, a, y⟩ = false := by
        cases a with
        | timerHeartbeat io => exact absurd rfl (hfd io.socketFd)
        | _ => rfl
      rw [hno]
      exact hn

/-- **The pauses.**  `socket_close_num` is the pauses since the last log-in, in eight bits. -/
theorem socketCloseNum_eq {y : Sys} {l : List (Run.Step Act Sys)}
    (hr : Run.Runs exec Sys.init l y) :
    y.app.link.socketCloseNum = UInt8.ofNat (pauses l) := by
  induction hr with
  | nil => rfl
  | @snoc l y z a hr he ih =>
      rw [pauses_snoc]
      exact (exec_eq_some.mp he).socketCloseNum_eq (Runs.link_eq hr).2 ih

namespace Link

/-- The time a connection has still to come, after a second in which the platform has a
socket. -/
theorem second_socketContentTim (fd : Int) (l : Link) :
    (l.second (some fd)).socketContentTim =
      if l.socketCloseTim = 1 ∧ l.socketCloseNum + 1 < socketCloseNumNum then socketCloseTimTim
      else l.beforeClose.socketContentTim := by
  obtain ⟨m, d, t, c, n, hbefore⟩ := beforeClose_moves l
  rw [second_eq, hbefore]
  unfold closeSecond
  by_cases h0 : l.socketCloseTim = 0
  · rw [if_pos h0, if_neg fun h => absurd (h0.symm.trans h.1) (by decide)]
  · rw [if_neg h0]
    by_cases h1 : l.socketCloseTim = 1
    · rw [if_pos (sub_one_eq_zero.mpr h1)]
      by_cases hnum : l.socketCloseNum + 1 < socketCloseNumNum
      · simp only [hnum, h1, if_true, and_self]
        rfl
      · simp only [hnum, if_false, and_false]
    · rw [if_neg (sub_one_eq_zero.not.mpr h1), if_neg fun h => h1 h.1]

theorem beforeClose_socketContentTim (l : Link) :
    l.beforeClose.socketContentTim =
      if l.socketContentTim = 0 then 0 else l.socketContentTim - 1 := by
  obtain ⟨m, d, h1⟩ := aliveSecond_moves { l with heartbeatTim := l.heartbeatTim + 1 }
  obtain ⟨t, h2⟩ := loginSecond_moves (aliveSecond { l with heartbeatTim := l.heartbeatTim + 1 })
  unfold beforeClose
  rw [h2, h1]
  unfold contentSecond
  by_cases h0 : l.socketContentTim = 0
  · rw [if_pos h0, if_pos h0]
    exact h0
  · rw [if_neg h0, if_neg h0]

end Link

theorem UInt8.pred_lt {t : UInt8} (h : t ≤ socketCloseTimTim) (h0 : t ≠ 0) :
    t - 1 < socketCloseTimTim := by
  have hle : t.toNat ≤ 10 := UInt8.le_iff_toNat_le.mp h
  have hpos : 1 ≤ t.toNat := Nat.one_le_iff_ne_zero.mpr fun hz => h0 (UInt8.toNat_inj.mp hz)
  have hone : (1 : UInt8) ≤ t := UInt8.le_iff_toNat_le.mpr hpos
  refine UInt8.lt_iff_toNat_lt.mpr ?_
  rw [UInt8.toNat_sub_of_le _ _ hone]
  show t.toNat - 1 < 10
  omega

namespace Link

/-- Before the pause is looked at, the time is less than that of a new connection. -/
theorem beforeClose_lt {l : Link} (h : l.socketContentTim ≤ socketCloseTimTim) :
    l.beforeClose.socketContentTim < socketCloseTimTim := by
  rw [beforeClose_socketContentTim]
  split
  · decide
  · next h0 => exact UInt8.pred_lt h h0

theorem second_socketContentTim_le {l : Link} (h : l.socketContentTim ≤ socketCloseTimTim)
    (fd : Option Int) : (l.second fd).socketContentTim ≤ socketCloseTimTim := by
  have hlt := UInt8.le_of_lt (beforeClose_lt h)
  cases fd with
  | some fd =>
      rw [second_socketContentTim]
      split
      · exact UInt8.le_refl _
      · exact hlt
  | none =>
      have hkeep : (l.second none).socketContentTim = l.beforeClose.socketContentTim := by
        rw [second_eq]
        unfold closeSecond
        split
        · rfl
        · split <;> rfl
      rw [hkeep]
      exact hlt

end Link

theorem Reachable.socketContentTim_le {x : Sys} (h : Reachable x) :
    x.app.link.socketContentTim ≤ socketCloseTimTim := by
  have hkeep := h.invariant
    (I := fun x => x.app.link.NoSwitch ∧ x.app.link.socketContentTim ≤ socketCloseTimTim)
    ⟨⟨rfl, rfl⟩, by decide⟩ ?_
  · exact hkeep.2
  · rintro x a y ⟨hno, hle⟩ hstep
    rw [hstep.link_eq hno]
    refine ⟨(linkEventOf a x).after_noSwitch hno, ?_⟩
    cases linkEventOf a x with
    | second fd => exact Link.second_socketContentTim_le hle fd
    | entered fd => exact UInt8.le_refl _
    | connected =>
        show (0 : UInt8) ≤ socketCloseTimTim
        decide
    | _ => exact hle

/-- The step opens a connection. -/
def opensConnection (e : Run.Step Act Sys) : Prop :=
  e.post.app.link.socketContentTim = socketCloseTimTim

/-- **Reconnection.**  In every run from power-on the timer opens a connection, where the
platform has a socket, exactly if a pause ends and it is one of the first three since the
last log-in.  The pauses are counted modulo 256, so that the 256th is taken for one of them too,
and the three behind it. -/
theorem reconnects_iff {y : Sys} {l : List (Run.Step Act Sys)} (hr : Run.Runs exec Sys.init l y)
    {l₁ l₂ : List (Run.Step Act Sys)} {e : Run.Step Act Sys} (hl : l = l₁ ++ e :: l₂)
    {io : Platform} {fd : Int} (ha : e.act = .timerHeartbeat io) (hfd : io.socketFd = some fd) :
    opensConnection e ↔ pauseEnds e = true ∧ (pauses l₁ + 1) % 256 < 4 := by
  obtain ⟨hr₁, he⟩ := hr.before hl
  have hreach : Reachable e.pre := ⟨l₁, hr₁⟩
  have hnum := socketCloseNum_eq hr₁
  have hlt := Link.beforeClose_lt hreach.socketContentTim_le
  obtain ⟨x, a, z⟩ := e
  obtain rfl : a = .timerHeartbeat io := ha
  have hlink : z.app.link = x.app.link.second (some fd) := by
    rw [(exec_eq_some.mp he).link_eq hreach.noSwitch]
    simp only [linkEventOf, hfd, LinkEvent.after]
  have hfour : x.app.link.socketCloseNum + 1 < socketCloseNumNum ↔ (pauses l₁ + 1) % 256 < 4 := by
    have hnum : x.app.link.socketCloseNum = UInt8.ofNat (pauses l₁) := hnum
    rw [hnum, ofNat_succ, UInt8.lt_iff_toNat_lt, UInt8.toNat_ofNat']
    rfl
  have hends : pauseEnds ⟨x, .timerHeartbeat io, z⟩ = true ↔ x.app.link.socketCloseTim = 1 := by
    simp [pauseEnds, isSecond]
  unfold opensConnection
  rw [hends, ← hfour]
  dsimp only
  rw [hlink, Link.second_socketContentTim]
  split
  · next h => exact ⟨fun _ => h, fun _ => rfl⟩
  · next h => exact ⟨fun heq => absurd heq (UInt8.ne_of_lt hlt), fun h' => absurd h' h⟩

/-- The connection is lost, and ten seconds later there is the next one. -/
theorem firstPause_reconnects :
    ∃ l₁ e y, Run.Runs exec Sys.init (l₁ ++ [e]) y ∧ pauses l₁ = 0 ∧ opensConnection e := by
  obtain ⟨l₁, ⟨s, pc⟩, hr, hq⟩ := Runs.of_acts_test
    (l := .socketEvent .closeRsp :: List.replicate 9 (.timerHeartbeat Platform.silent))
    (q := fun l x => decide (pauses l = 0) && (decide (x.atIsCmd = none) &&
      decide (x.app.link.socketCloseTim = 1))) (by decide +kernel)
  simp only [Bool.and_eq_true, decide_eq_true_eq] at hq
  obtain ⟨hpauses, hpc, htim⟩ := hq
  have hpc : pc = none := hpc
  subst hpc
  have hstep : Steps ⟨s, none⟩ (.timerHeartbeat { Platform.silent with socketFd := some 1 })
      ⟨timerHeartbeat { Platform.silent with socketFd := some 1 } s, none⟩ := .timerHeartbeat
  have hrun := hr.snoc (exec_eq_some.mpr hstep)
  refine ⟨l₁, _, _, hrun, hpauses, (reconnects_iff hrun rfl rfl rfl).mpr ⟨?_, ?_⟩⟩
  · show (true && s.link.socketCloseTim == 1) = true
    rw [htim]
    rfl
  · rw [hpauses]
    decide

/-! ## Log-in -/

/-- The log-in messages a connection has still to come: those of its first half minute, and
`w` when the counter wraps. -/
def loginsLeft (w : Nat) (t : UInt8) : Nat :=
  if t = 0 then 0 else w + if t < 10 then 3 else if t < 20 then 2 else if t < 30 then 1 else 0

/-- A second takes the one it sends; `w` is needed where the counter wraps. -/
theorem loginsLeft_second {w : Nat} {t : UInt8} (h : t ≠ 0) (hw : w = 1 ∨ t ≠ 255) :
    (if loginDue (t + 1) then 1 else 0) + loginsLeft w (t + 1) ≤ loginsLeft w t := by
  have hfirst : ∀ n < 256, UInt8.ofNat n ≠ 0 → UInt8.ofNat n ≠ 255 →
      (if loginDue (UInt8.ofNat n + 1) then 1 else 0) + loginsLeft 0 (UInt8.ofNat n + 1) ≤
        loginsLeft 0 (UInt8.ofNat n) ∧ UInt8.ofNat n + 1 ≠ 0 := by decide +kernel
  have hsplit : ∀ u : UInt8, u ≠ 0 → loginsLeft w u = w + loginsLeft 0 u := by
    intro u hu
    unfold loginsLeft
    rw [if_neg hu, if_neg hu, Nat.zero_add]
  by_cases hwrap : t = 255
  · obtain rfl := hw.resolve_right (not_not.mpr hwrap)
    rw [hwrap]
    decide
  · have hone := hfirst t.toNat t.toNat_lt
    rw [UInt8.ofNat_toNat] at hone
    obtain ⟨hle, hne⟩ := hone h hwrap
    rw [hsplit t h, hsplit (t + 1) hne]
    omega

/-- The log-in message of a second. -/
theorem secondMsgs_login (s : App) :
    (secondMsgs s).count .msg121 =
      if s.link.socketEn = 1 ∧ s.link.loginSuccess = 0 ∧ s.link.loginTim ≠ 0 ∧
        loginDue (s.link.loginTim + 1) then 1 else 0 := by
  have hite : ∀ (c : Prop) [Decidable c] (ms : List SocketMsg), ms.count .msg121 = 0 →
      (if c then ms else []).count .msg121 = 0 := by
    intro c _ ms hms
    split
    · exact hms
    · rfl
  have hday : ∀ c d : Prop, [Decidable c] → [Decidable d] →
      ((if c then [SocketMsg.msg130] else []) ++ if d then [SocketMsg.msg124] else []).count
        SocketMsg.msg121 = 0 := by
    intro c d _ _
    rw [List.count_append, hite c _ (by decide), hite d _ (by decide)]
  unfold secondMsgs
  have halive : ∀ c d : Prop, [Decidable c] → [Decidable d] → ∀ ms : List SocketMsg,
      ms.count .msg121 = 0 →
      ((if c then [SocketMsg.msg128] else []) ++ if d then ms else []).count
        SocketMsg.msg121 = 0 := by
    intro c d _ _ ms hms
    rw [List.count_append, hite c _ (by decide), hite d _ hms]
  rw [List.count_append, List.count_append, List.count_append,
    hite _ [SocketMsg.msg126] (by decide), hite _ [SocketMsg.msg133] (by decide),
    hite _ _ (halive _ _ _ (hday _ _))]
  split <;> rfl

theorem Event.posts_login (e : Event) (s : App) : (e.posts s).socketMsgs.count .msg121 = 0 := by
  cases e with
  | timedOut =>
      show (timedOutPosts s).socketMsgs.count _ = 0
      rw [(timedOutPosts_count s).1]
      rfl
  | _ => rfl

/-- A log-in message is posted by the timer, and when a connection is there. -/
theorem postsOf_login (a : Act) (x : Sys) :
    (postsOf a x).socketMsgs.count .msg121 =
      match a with
      | .timerHeartbeat _ => (secondMsgs x.app).count .msg121
      | .socketEvent .connectRsp => 1
      | _ => 0 := by
  cases a with
  | isCmd =>
      simp only [postsOf]
      cases frameAt x with
      | none => rfl
      | some c =>
          cases c with
          | instruction2 => rfl
          | instruction29 => rfl
          | instruction32 => rfl
          | _ => exact Event.posts_login _ _
  | socket io =>
      simp only [postsOf]
      cases x.app.socketMsgs with
      | nil => rfl
      | cons m ms =>
          cases m with
          | msg120 => rfl
          | msg130 =>
              simp only [messagePosts]
              split <;> rfl
          | _ => exact Event.posts_login _ _
  | audio io =>
      simp only [postsOf]
      cases x.app.audioMsgs with
      | nil => rfl
      | cons m ms =>
          cases m with
          | uart3Read =>
              simp only [audioPosts]
              unfold uart3Posts markerPosts
              repeat' split
              all_goals rfl
          | _ => rfl
  | mp3 io =>
      simp only [postsOf]
      cases x.app.mp3Msgs with
      | nil => rfl
      | cons m ms => cases m <;> rfl
  | socketEvent e => cases e <;> rfl
  | audioRecordCb buff len => exact Event.posts_login _ _
  | _ => rfl

namespace Link

/-- The log-in counter, after a second. -/
theorem second_loginTim (fd : Option Int) (l : Link) :
    (l.second fd).loginTim =
      if l.socketEn = 1 ∧ l.loginSuccess = 0 ∧ l.loginTim ≠ 0 then l.loginTim + 1
      else l.loginTim := by
  obtain ⟨_, _, _, _, hclose⟩ := closeSecond_moves fd l.beforeClose
  obtain ⟨_, _, hcontent⟩ := contentSecond_moves
    (loginSecond (aliveSecond { l with heartbeatTim := l.heartbeatTim + 1 }))
  obtain ⟨m, d, halive⟩ := aliveSecond_moves { l with heartbeatTim := l.heartbeatTim + 1 }
  rw [second_eq, hclose]
  show l.beforeClose.loginTim = _
  unfold beforeClose
  rw [hcontent, halive]
  unfold loginSecond
  dsimp only
  split <;> rfl

end Link

/-- The step is the event of a connection that is there. -/
def isConnected (e : Run.Step Act Sys) : Bool :=
  match e.act with
  | .socketEvent .connectRsp => true
  | _ => false

theorem passLinkEvent_loginTim (x : Sys) (l : Link) :
    ((passLinkEvent x).after l).loginTim = l.loginTim := by
  unfold passLinkEvent
  repeat' split
  all_goals rfl

theorem messageLinkEvent_loginTim (io : Platform) (m : SocketMsg) (s : App) (l : Link) :
    ((messageLinkEvent io m s).after l).loginTim = l.loginTim := by
  unfold messageLinkEvent
  repeat' split
  all_goals rfl

/-- The step is the second in which the log-in counter wraps. -/
def wraps (e : Run.Step Act Sys) : Prop :=
  isSecond e = true ∧ e.pre.app.link.loginTim = 255

instance (e : Run.Step Act Sys) : Decidable (wraps e) := by unfold wraps; infer_instance

/-- A second takes the log-in message it posts from those left. -/
theorem second_logins {w : Nat} {s : App} (hw : w = 1 ∨ s.link.loginTim ≠ 255)
    (fd : Option Int) :
    (secondMsgs s).count .msg121 + loginsLeft w (s.link.second fd).loginTim ≤
      loginsLeft w s.link.loginTim := by
  rw [secondMsgs_login, Link.second_loginTim]
  by_cases hcount : s.link.socketEn = 1 ∧ s.link.loginSuccess = 0 ∧ s.link.loginTim ≠ 0
  · have hleft := loginsLeft_second hcount.2.2 hw
    rw [if_pos hcount]
    simp only [hcount, ne_eq, not_false_eq_true, true_and]
    exact hleft
  · rw [if_neg hcount, if_neg fun hdue => hcount ⟨hdue.1, hdue.2.1, hdue.2.2.1⟩]
    exact Nat.le_of_eq (Nat.zero_add _)

/-- So does every step, and a connection brings them. -/
theorem Steps.logins {w : Nat} {x y : Sys} {a : Act} (h : Steps x a y)
    (hx : x.app.link.NoSwitch) (hw : w = 1 ∨ ¬ wraps ⟨x, a, y⟩) :
    (postsOf a x).socketMsgs.count .msg121 + loginsLeft w y.app.link.loginTim ≤
      loginsLeft w x.app.link.loginTim + if isConnected ⟨x, a, y⟩ then 4 + w else 0 := by
  rw [h.link_eq hx, postsOf_login]
  cases a with
  | isCmd =>
      simp only [linkEventOf, passLinkEvent_loginTim, Nat.zero_add]
      exact Nat.le_add_right _ _
  | socket io =>
      simp only [linkEventOf, Nat.zero_add]
      split
      · rw [messageLinkEvent_loginTim]
        exact Nat.le_add_right _ _
      · exact Nat.le_add_right _ _
  | timerHeartbeat io =>
      exact second_logins (hw.imp_right fun hno htim => hno ⟨rfl, htim⟩) io.socketFd
  | socketEvent e =>
      cases e with
      | connectRsp =>
          show 1 + (w + 3) ≤ _ + (4 + w)
          omega
      | closeRsp => exact Nat.zero_le _
      | _ => exact Nat.le_of_eq (Nat.zero_add _)
  | _ => exact Nat.le_of_eq (Nat.zero_add _)

theorem Runs.logins {w : Nat} {y : Sys} {l : List (Run.Step Act Sys)}
    (hr : Run.Runs exec Sys.init l y) (hw : w = 1 ∨ ∀ e ∈ l, ¬ wraps e) :
    (socketMsgHandle.posted l).count .msg121 + loginsLeft w y.app.link.loginTim ≤
      (4 + w) * l.countP isConnected := by
  induction hr with
  | nil => exact Nat.zero_le _
  | @snoc l y z a hr he ih =>
      have hbefore := ih (hw.imp_right fun h e hm => h e (List.mem_append_left _ hm))
      have hstep := (exec_eq_some.mp he).logins (Runs.link_eq hr).2
        (hw.imp_right fun h => h _ (List.mem_append_right _ (List.mem_singleton_self _)))
      have hcount : (socketMsgHandle.posted (l ++ [⟨y, a, z⟩])).count .msg121 =
          (socketMsgHandle.posted l).count .msg121 +
            (postsOf a y).socketMsgs.count .msg121 := by
        rw [socketMsgHandle.posted_snoc, List.count_append]
        rfl
      rw [hcount, List.countP_append, List.countP_singleton, Nat.mul_add]
      split at hstep
      · next hconnected =>
          rw [if_pos hconnected, Nat.mul_one]
          omega
      · next hconnected =>
          rw [if_neg hconnected, Nat.mul_zero]
          omega

/-- **Log-in.**  In every run from power-on the firmware posts at most five log-in messages for
each connection that is there, and at most four where the log-in counter does not wrap. -/
theorem logins_le {y : Sys} {l : List (Run.Step Act Sys)} (hr : Run.Runs exec Sys.init l y) :
    (socketMsgHandle.posted l).count .msg121 ≤ 5 * l.countP isConnected ∧
      ((∀ e ∈ l, ¬ wraps e) →
        (socketMsgHandle.posted l).count .msg121 ≤ 4 * l.countP isConnected) := by
  refine ⟨le_trans (Nat.le_add_right _ _) (Runs.logins hr (w := 1) (Or.inl rfl)), fun hno => ?_⟩
  exact le_trans (Nat.le_add_right _ _) (Runs.logins hr (w := 0) (Or.inr hno))

/-- A connection that nobody answers, for half a minute: four log-in messages. -/
theorem unanswered_logins :
    ∃ l y, Run.Runs exec Sys.init l y ∧ (socketMsgHandle.posted l).count .msg121 = 4 ∧
      (socketMsgHandle.posted l).count .msg121 ≤ 4 * l.countP isConnected := by
  obtain ⟨l, y, hr, hq⟩ := Runs.of_acts_test
    (l := .socketEvent .connectRsp :: List.replicate 30 (.timerHeartbeat Platform.silent))
    (q := fun l _ => decide ((socketMsgHandle.posted l).count .msg121 = 4) &&
      l.all fun e => !decide (wraps e)) (by decide +kernel)
  rw [Bool.and_eq_true, decide_eq_true_eq, List.all_eq_true] at hq
  exact ⟨l, y, hr, hq.1, (logins_le hr).2 fun e he => by simpa using hq.2 e he⟩

end IntercomSalve
