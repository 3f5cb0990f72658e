/-
# `Delivery` — what becomes of the messages

`KING_MsgSend` is taken to succeed: a message that is posted is in the queue.  Each of
the three queues is then a `Run.Fifo`, whatever the interleaving of threads, timers and
callbacks, and what was posted is compared with what was handled and what still waits.

Three laws of whole runs follow, each an account that is settled at every moment:
a button makes one call request and a recorded frame one packet message
(`requests_settled`); each frame that is taken for one that accepts our call, each call
that is answered and each broadcast that begins start the voice device once, by way of
the prompt thread (`voiceStarts_settled`); and each frame or second that is taken for
the end of a call makes one prompt, by way of the audio thread (`endPrompts_settled`).
The handlers do not ask whether there is a call: a frame that comes without one, a
second acceptance, or a hang-up behind a time-out counts as well.
-/
import IntercomSalve.Traffic

namespace IntercomSalve

open Goto

/-! ## The queues -/

/-- What a step takes from `socketMsgHandle`. -/
def socketTakes (a : Act) (x : Sys) : List SocketMsg :=
  match a with
  | .socket _ | .recv _ => x.app.socketMsgs.take 1
  | _ => []

/-- What a step takes from `msgHandle_audio`. -/
def audioTakes (a : Act) (x : Sys) : List AudioMsg :=
  match a with
  | .audio _ => x.app.audioMsgs.take 1
  | _ => []

/-- What a step takes from `MP3_msgHandle`. -/
def mp3Takes (a : Act) (x : Sys) : List Mp3Msg :=
  match a with
  | .mp3 _ => x.app.mp3Msgs.take 1
  | _ => []

theorem taken_socketMsgs (a : Act) (x : Sys) :
    x.app.socketMsgs = socketTakes a x ++ (taken a x.app).socketMsgs := by
  cases a with
  | socket io => exact (List.take_append_drop 1 _).symm.trans (by simp [socketTakes, taken])
  | recv chunk => exact (List.take_append_drop 1 _).symm.trans (by simp [socketTakes, taken])
  | _ => rfl

theorem taken_audioMsgs (a : Act) (x : Sys) :
    x.app.audioMsgs = audioTakes a x ++ (taken a x.app).audioMsgs := by
  cases a with
  | audio io => exact (List.take_append_drop 1 _).symm.trans (by simp [audioTakes, taken])
  | _ => rfl

theorem taken_mp3Msgs (a : Act) (x : Sys) :
    x.app.mp3Msgs = mp3Takes a x ++ (taken a x.app).mp3Msgs := by
  cases a with
  | mp3 io => exact (List.take_append_drop 1 _).symm.trans (by simp [mp3Takes, taken])
  | _ => rfl

theorem taken_out (a : Act) (s : App) : (taken a s).out = s.out := by
  cases a <;> rfl

/-- `socketMsgHandle`. -/
def socketMsgHandle : Run.Fifo exec SocketMsg where
  queue x := x.app.socketMsgs
  takes := socketTakes
  posts a x := (postsOf a x).socketMsgs
  step := by
    intro a x y he
    have h : y.app.socketMsgs = (taken a x.app).socketMsgs ++ (postsOf a x).socketMsgs :=
      congrArg Posts.socketMsgs (exec_eq_some.mp he).traffic_eq
    rw [h, ← List.append_assoc, ← taken_socketMsgs]

/-- `msgHandle_audio`. -/
def msgHandleAudio : Run.Fifo exec AudioMsg where
  queue x := x.app.audioMsgs
  takes := audioTakes
  posts a x := (postsOf a x).audioMsgs
  step := by
    intro a x y he
    have h : y.app.audioMsgs = (taken a x.app).audioMsgs ++ (postsOf a x).audioMsgs :=
      congrArg Posts.audioMsgs (exec_eq_some.mp he).traffic_eq
    rw [h, ← List.append_assoc, ← taken_audioMsgs]

/-- `MP3_msgHandle`. -/
def mp3MsgHandle : Run.Fifo exec Mp3Msg where
  queue x := x.app.mp3Msgs
  takes := mp3Takes
  posts a x := (postsOf a x).mp3Msgs
  step := by
    intro a x y he
    have h : y.app.mp3Msgs = (taken a x.app).mp3Msgs ++ (postsOf a x).mp3Msgs :=
      congrArg Posts.mp3Msgs (exec_eq_some.mp he).traffic_eq
    rw [h, ← List.append_assoc, ← taken_mp3Msgs]

/-- The calls beyond the queues: nothing takes them away. -/
def controlCalls : Run.Fifo exec Out where
  queue x := x.app.out.filter Out.isControl
  takes _ _ := []
  posts a x := (postsOf a x).control
  step := by
    intro a x y he
    have h : y.app.out.filter Out.isControl =
        (taken a x.app).out.filter Out.isControl ++ (postsOf a x).control :=
      congrArg Posts.control (exec_eq_some.mp he).traffic_eq
    rw [h, taken_out]
    rfl

/-! ## Posts and events -/

/-- The messages that end a call with a prompt. -/
def AudioMsg.isEnd : AudioMsg → Bool
  | .hmiNews2 | .hmiNews3 | .hmiNews4 => true
  | _ => false

/-- The prompts that tell of the end. -/
def Mp3Msg.isEnd : Mp3Msg → Bool
  | .audio .endConv | .audio .tim60End | .audio .busy => true
  | _ => false

/-- The messages that only an event of the session posts. -/
structure Posts.Quiet (p : Posts) : Prop where
  request : p.socketMsgs.count .msg123 = 0
  packet : p.socketMsgs.count .msg125 = 0
  ending : p.audioMsgs.countP AudioMsg.isEnd = 0
  start : p.mp3Msgs.count .stopAudioStart = 0

theorem Posts.quiet_none : Posts.none.Quiet := ⟨rfl, rfl, rfl, rfl⟩

theorem markerPosts_quiet (s : App) : (markerPosts s).Quiet := by
  unfold markerPosts
  split
  · exact ⟨rfl, rfl, rfl, rfl⟩
  · exact Posts.quiet_none

theorem secondMsgs_timed (s : App) : ∀ m ∈ secondMsgs s, m.isTimed = true := by
  have hone : ∀ (c : Prop) [Decidable c] (m' : SocketMsg), m'.isTimed = true →
      ∀ m ∈ (if c then [m'] else []), m.isTimed = true := by
    intro c _ m' hm' m hm
    split at hm
    · obtain rfl := List.mem_singleton.mp hm
      exact hm'
    · exact absurd hm List.not_mem_nil
  intro m hm
  unfold secondMsgs at hm
  rw [List.mem_append, List.mem_append, List.mem_append] at hm
  rcases hm with ((hm | hm) | hm) | hm
  · exact hone _ _ rfl m hm
  · exact hone _ _ rfl m hm
  · split at hm
    · rw [List.mem_append] at hm
      rcases hm with hm | hm
      · exact hone _ _ rfl m hm
      · split at hm
        · rw [List.mem_append] at hm
          rcases hm with hm | hm
          · exact hone _ _ rfl m hm
          · exact hone _ _ rfl m hm
        · exact absurd hm List.not_mem_nil
    · exact absurd hm List.not_mem_nil
  · exact hone _ _ rfl m hm

theorem secondPosts_quiet (s : App) : (secondPosts s).Quiet where
  request := List.count_eq_zero.mpr fun hm => absurd (secondMsgs_timed s _ hm) (by decide)
  packet := List.count_eq_zero.mpr fun hm => absurd (secondMsgs_timed s _ hm) (by decide)
  ending := rfl
  start := rfl

/-- What a step posts is a matter of its event, or of no account. -/
inductive PostsOf (e : Event) (s : App) (p : Posts) : Prop
  | event : p = e.posts s → PostsOf e s p
  | quiet : p.Quiet → (e.posts s).Quiet → PostsOf e s p

theorem framePosts_of (c : SocketInstruction) (s : App) :
    PostsOf (frameEvent c s) s (framePosts c s) := by
  have hquiet : ∀ m, m = .uart3Writelogin ∨ m = .uart3Writejdq →
      (Posts.audio (.uart3Send m)).Quiet := by
    rintro m (rfl | rfl) <;> exact ⟨rfl, rfl, rfl, rfl⟩
  cases c with
  | instruction2 => exact .quiet (hquiet _ (Or.inl rfl)) Posts.quiet_none
  | instruction29 => exact .quiet (hquiet _ (Or.inr rfl)) Posts.quiet_none
  | instruction32 => exact .quiet ⟨rfl, rfl, rfl, rfl⟩ Posts.quiet_none
  | _ => exact .event rfl

theorem messagePosts_of (io : Platform) (m : SocketMsg) (s : App) :
    PostsOf (messageEvent m s) s (messagePosts io m s) := by
  cases m with
  | msg120 => exact .quiet ⟨rfl, rfl, rfl, rfl⟩ Posts.quiet_none
  | msg130 =>
      refine .quiet ?_ Posts.quiet_none
      unfold messagePosts
      dsimp only
      split
      · exact ⟨rfl, rfl, rfl, rfl⟩
      · exact Posts.quiet_none
  | _ => exact .event rfl

/-- A button frame, an alarm, or nothing. -/
theorem uart3Posts_of (io : Platform) (s : App) :
    PostsOf (audioEvent io .uart3Read s) s (audioPosts io .uart3Read s) := by
  unfold audioEvent audioPosts
  dsimp only
  by_cases hread : s.link.mailListTim = 0 ∧ 2 ≤ io.uartAvailable ∧
      isUart3Frame (readTemp io s).uart.temp
  · rw [if_pos hread]
    obtain ⟨h1, h2, h3⟩ := hread
    unfold uart3Posts
    by_cases hbutton : (readTemp io s).uart.temp 4 = 1
    · rw [if_pos hbutton]
      by_cases hbusy : (readTemp io s).call.isHostBusy = 0
      · rw [if_neg (not_not.mpr hbusy)]
        by_cases hidle : (readTemp io s).call.callUserOperation = 0
        · rw [if_pos hidle, if_pos ⟨h1, h2, h3, hbutton, hbusy, hidle⟩]
          exact .event rfl
        · rw [if_neg hidle, if_neg fun h => hidle h.2.2.2.2.2]
          refine .quiet ?_ Posts.quiet_none
          split
          · exact Posts.quiet_none
          · exact markerPosts_quiet _
      · rw [if_pos hbusy, if_neg fun h => hbusy h.2.2.2.2.1]
        exact .event rfl
    · rw [if_neg hbutton, if_neg fun h => hbutton h.2.2.2.1]
      refine .quiet ?_ Posts.quiet_none
      repeat' split
      all_goals exact ⟨rfl, rfl, rfl, rfl⟩
  · rw [if_neg hread, if_neg fun h => hread ⟨h.1, h.2.1, h.2.2.1⟩]
    exact .event rfl

theorem audioPosts_of (io : Platform) (m : AudioMsg) (s : App) :
    PostsOf (audioEvent io m s) s (audioPosts io m s) := by
  cases m with
  | uart3Read => exact uart3Posts_of io s
  | _ => exact .quiet ⟨rfl, rfl, rfl, rfl⟩ Posts.quiet_none

theorem promptPosts_of (m : Mp3Msg) (s : App) : PostsOf (promptEvent m s) s (promptPosts m) := by
  have hprompt : ∀ c : Prop, [Decidable c] →
      ((if c then Event.promptStops else .nothing).posts s).Quiet := by
    intro c _
    split <;> exact Posts.quiet_none
  cases m with
  | audio f => exact .quiet Posts.quiet_none (hprompt _)
  | stop f => exact .quiet Posts.quiet_none (hprompt _)
  | stopAudioStart => exact .quiet ⟨rfl, rfl, rfl, rfl⟩ Posts.quiet_none

theorem postsOf_of (a : Act) (x : Sys) : PostsOf (eventOf a x) x.app (postsOf a x) := by
  cases a with
  | isCmd =>
      simp only [eventOf, postsOf]
      cases frameAt x with
      | some c => exact framePosts_of c x.app
      | none => exact .event rfl
  | socket io =>
      simp only [eventOf, postsOf]
      cases x.app.socketMsgs with
      | cons m ms => exact messagePosts_of io m x.app
      | nil => exact .event rfl
  | audio io =>
      simp only [eventOf, postsOf]
      cases x.app.audioMsgs with
      | cons m ms => exact audioPosts_of io m x.app
      | nil => exact .event rfl
  | mp3 io =>
      simp only [eventOf, postsOf]
      cases x.app.mp3Msgs with
      | cons m ms => exact promptPosts_of m x.app
      | nil => exact .event rfl
  | timerHeartbeat io => exact .quiet (secondPosts_quiet x.app) Posts.quiet_none
  | socketEvent e =>
      refine .quiet ?_ Posts.quiet_none
      cases e <;> exact ⟨rfl, rfl, rfl, rfl⟩
  | audioRecordCb buff len => exact .event rfl
  | recv chunk => exact .event rfl
  | audioPlayCb => exact .event rfl
  | _ => exact .quiet ⟨rfl, rfl, rfl, rfl⟩ Posts.quiet_none

/-! ## The accounts -/

/-- The step is one of these events. -/
def isEvent (es : List Event) (e : Run.Step Act Sys) : Bool := es.contains (eventOf e.act e.pre)

/-- The step stores a recorded frame. -/
def storesFrame (e : Run.Step Act Sys) : Bool :=
  match eventOf e.act e.pre with
  | .recorded _ => true
  | _ => false

/-- The step is taken for the end of a call, and has it told: all but a second that finds a call in
state 3 gone silent. -/
def endsTold (e : Run.Step Act Sys) : Bool :=
  match eventOf e.act e.pre with
  | .ended => true
  | .timedOut =>
      !(e.pre.app.call.callUserOperation = 3 ∧
        e.pre.app.link.heartbeatTim > callReceptionTimeout : Bool)
  | _ => false

/-- In either case as many messages of these kinds are posted as the event posts. -/
theorem PostsOf.count {e : Event} {s : App} {p : Posts} (h : PostsOf e s p) :
    p.socketMsgs.count .msg123 = (e.posts s).socketMsgs.count .msg123 ∧
      p.socketMsgs.count .msg125 = (e.posts s).socketMsgs.count .msg125 ∧
      p.audioMsgs.countP AudioMsg.isEnd = (e.posts s).audioMsgs.countP AudioMsg.isEnd ∧
      p.mp3Msgs.count .stopAudioStart = (e.posts s).mp3Msgs.count .stopAudioStart := by
  cases h with
  | event h =>
      rw [h]
      exact ⟨rfl, rfl, rfl, rfl⟩
  | quiet h h' =>
      exact ⟨h.request.trans h'.request.symm, h.packet.trans h'.packet.symm,
        h.ending.trans h'.ending.symm, h.start.trans h'.start.symm⟩

theorem timedOutPosts_count (s : App) :
    (timedOutPosts s).socketMsgs = [] ∧ (timedOutPosts s).mp3Msgs = [] ∧
      (timedOutPosts s).audioMsgs.countP AudioMsg.isEnd =
        if s.call.callUserOperation = 3 ∧ s.link.heartbeatTim > callReceptionTimeout then 0
        else 1 := by
  unfold timedOutPosts
  split <;> exact ⟨rfl, rfl, rfl⟩

theorem endPrompt_isEnd (s : App) : (endPrompt s).isEnd = true := by
  unfold endPrompt
  split
  · rfl
  · split <;> rfl

theorem posts_request (e : Run.Step Act Sys) :
    (postsOf e.act e.pre).socketMsgs.countP (· == .msg123) =
      if isEvent [.button] e then 1 else 0 := by
  refine (postsOf_of e.act e.pre).count.1.trans ?_
  unfold isEvent
  cases eventOf e.act e.pre with
  | timedOut =>
      rw [Event.posts, (timedOutPosts_count _).1]
      rfl
  | _ => rfl

theorem posts_packet (e : Run.Step Act Sys) :
    (postsOf e.act e.pre).socketMsgs.countP (· == .msg125) = if storesFrame e then 1 else 0 := by
  refine (postsOf_of e.act e.pre).count.2.1.trans ?_
  unfold storesFrame
  cases eventOf e.act e.pre with
  | timedOut =>
      rw [Event.posts, (timedOutPosts_count _).1]
      rfl
  | _ => rfl

theorem posts_start (e : Run.Step Act Sys) :
    (postsOf e.act e.pre).mp3Msgs.countP (· == .stopAudioStart) =
      if isEvent [.accepted, .answered, .broadcastOn] e then 1 else 0 := by
  refine (postsOf_of e.act e.pre).count.2.2.2.trans ?_
  unfold isEvent
  cases eventOf e.act e.pre with
  | timedOut =>
      rw [Event.posts, (timedOutPosts_count _).2.1]
      rfl
  | _ => rfl

theorem posts_ending (e : Run.Step Act Sys) :
    (postsOf e.act e.pre).audioMsgs.countP AudioMsg.isEnd = if endsTold e then 1 else 0 := by
  refine (postsOf_of e.act e.pre).count.2.2.1.trans ?_
  unfold endsTold
  cases eventOf e.act e.pre with
  | timedOut =>
      rw [Event.posts, (timedOutPosts_count _).2.2]
      split <;> simp_all
  | ended =>
      show List.countP _ [endPrompt e.pre.app, _] = 1
      rw [List.countP_cons_of_pos (endPrompt_isEnd _)]
      rfl
  | _ => rfl

/-- No event starts the voice device, or a prompt about the end, by itself. -/
theorem Event.posts_relayed (e : Event) (s : App) :
    (e.posts s).audioMsgs.countP (· == .hmiNews) = 0 ∧
      (e.posts s).mp3Msgs.countP Mp3Msg.isEnd = 0 := by
  cases e with
  | timedOut =>
      show (timedOutPosts s).audioMsgs.countP _ = 0 ∧ _
      unfold timedOutPosts
      split <;> exact ⟨rfl, by rw [Event.posts, (timedOutPosts_count s).2.1]; rfl⟩
  | ended =>
      refine ⟨?_, rfl⟩
      show List.countP _ [endPrompt s, _] = 0
      unfold endPrompt
      repeat' split
      all_goals rfl
  | _ => exact ⟨rfl, rfl⟩

theorem framePosts_relayed (c : SocketInstruction) (s : App) :
    (framePosts c s).audioMsgs.countP (· == .hmiNews) = 0 ∧
      (framePosts c s).mp3Msgs.countP Mp3Msg.isEnd = 0 := by
  cases c with
  | instruction2 => exact ⟨rfl, rfl⟩
  | instruction29 => exact ⟨rfl, rfl⟩
  | instruction32 => exact ⟨rfl, rfl⟩
  | _ => exact Event.posts_relayed _ s

theorem messagePosts_relayed (io : Platform) (m : SocketMsg) (s : App) :
    (messagePosts io m s).audioMsgs.countP (· == .hmiNews) = 0 ∧
      (messagePosts io m s).mp3Msgs.countP Mp3Msg.isEnd = 0 := by
  cases m with
  | msg120 => exact ⟨rfl, rfl⟩
  | msg130 =>
      unfold messagePosts
      dsimp only
      split <;> exact ⟨rfl, rfl⟩
  | _ => exact Event.posts_relayed _ s

theorem uart3Posts_relayed (s : App) :
    (uart3Posts s).audioMsgs.countP (· == .hmiNews) = 0 ∧
      (uart3Posts s).mp3Msgs.countP Mp3Msg.isEnd = 0 := by
  unfold uart3Posts markerPosts
  repeat' split
  all_goals exact ⟨rfl, rfl⟩

/-- The audio thread has one prompt told for each end it takes. -/
theorem audioPosts_relayed (io : Platform) (m : AudioMsg) (s : App) :
    (audioPosts io m s).audioMsgs.countP (· == .hmiNews) = 0 ∧
      (audioPosts io m s).mp3Msgs.countP Mp3Msg.isEnd = [m].countP AudioMsg.isEnd := by
  cases m with
  | uart3Read =>
      unfold audioPosts
      dsimp only
      split
      · exact uart3Posts_relayed _
      · exact ⟨rfl, rfl⟩
  | _ => exact ⟨rfl, rfl⟩

/-- The prompt thread has the voice device started once for each request it takes. -/
theorem promptPosts_relayed (m : Mp3Msg) :
    (promptPosts m).audioMsgs.countP (· == .hmiNews) = [m].countP (· == .stopAudioStart) ∧
      (promptPosts m).mp3Msgs.countP Mp3Msg.isEnd = 0 := by
  cases m <;> exact ⟨rfl, rfl⟩

/-- What one thread takes, it passes on to the next, and nothing else is passed on. -/
theorem posts_relayed (a : Act) (x : Sys) :
    (postsOf a x).audioMsgs.countP (· == .hmiNews) =
        (mp3Takes a x).countP (· == .stopAudioStart) ∧
      (postsOf a x).mp3Msgs.countP Mp3Msg.isEnd = (audioTakes a x).countP AudioMsg.isEnd := by
  cases a with
  | isCmd =>
      simp only [postsOf, mp3Takes, audioTakes]
      cases frameAt x with
      | some c => exact framePosts_relayed c x.app
      | none => exact ⟨rfl, rfl⟩
  | socket io =>
      simp only [postsOf, mp3Takes, audioTakes]
      cases x.app.socketMsgs with
      | cons m ms => exact messagePosts_relayed io m x.app
      | nil => exact ⟨rfl, rfl⟩
  | audio io =>
      simp only [postsOf, mp3Takes, audioTakes]
      cases x.app.audioMsgs with
      | cons m ms => exact audioPosts_relayed io m x.app
      | nil => exact ⟨rfl, rfl⟩
  | mp3 io =>
      simp only [postsOf, mp3Takes, audioTakes]
      cases x.app.mp3Msgs with
      | cons m ms => exact promptPosts_relayed m
      | nil => exact ⟨rfl, rfl⟩
  | socketEvent e => cases e <;> exact ⟨rfl, rfl⟩
  | audioRecordCb buff len => exact Event.posts_relayed _ x.app
  | _ => exact ⟨rfl, rfl⟩

/-! ## The laws of a run -/

/-- A call comes in, is answered, a recorded frame is sent, and the caller hangs up. -/
def answeredActs : List Act :=
  [.socket { Platform.silent with socketFd := some 1 }, .audio Platform.silent,
    .socketEvent (.readInd 25),
    .recv ([0xAA, 0xFA, 0x00, 0x00, 0x01, 0x05, 0x00, 0x11, 0x31, 0x31] ++
      List.replicate 15 0x38)] ++ List.replicate 19 .isCmd ++
  [.mp3 Platform.silent, .audio Platform.silent, .audio Platform.silent,
    .audioRecordCb (fun _ => 0) 4, .socket Platform.silent, .socketEvent (.readInd 10),
    .recv [0xAA, 0xFA, 0x00, 0x00, 0x01, 0x05, 0x00, 0x02, 0x31, 0x32], .isCmd, .isCmd,
    .audio Platform.silent, .audio Platform.silent, .mp3 Platform.silent]

section Run

variable {y : Sys} {l : List (Run.Step Act Sys)}

/-- **Requests.**  Each button that starts a call makes one call request, and each recorded
frame one message to send a packet, where `KING_MsgSend` succeeds. -/
theorem requests_settled (hr : Run.Runs exec Sys.init l y) :
    (socketMsgHandle.handled l).count .msg123 + y.app.socketMsgs.count .msg123 =
        l.countP (isEvent [.button]) ∧
      (socketMsgHandle.handled l).count .msg125 + y.app.socketMsgs.count .msg125 =
        l.countP storesFrame := by
  have hcall := socketMsgHandle.count (· == .msg123) hr
  have hpacket := socketMsgHandle.count (· == .msg125) hr
  have hcalls : (socketMsgHandle.posted l).countP (· == .msg123) = l.countP (isEvent [.button]) :=
    Run.countP_flatMap_of_test fun e _ => posts_request e
  have hpackets : (socketMsgHandle.posted l).countP (· == .msg125) = l.countP storesFrame :=
    Run.countP_flatMap_of_test fun e _ => posts_packet e
  rw [hcalls] at hcall
  rw [hpackets] at hpacket
  exact ⟨hcall.trans (Nat.zero_add _), hpacket.trans (Nat.zero_add _)⟩

theorem answered_requests :
    ∃ l y, Run.Runs exec Sys.init l y ∧ l.countP storesFrame = 1 ∧
      (socketMsgHandle.handled l).count .msg123 + y.app.socketMsgs.count .msg123 =
        l.countP (isEvent [.button]) ∧
      (socketMsgHandle.handled l).count .msg125 + y.app.socketMsgs.count .msg125 =
        l.countP storesFrame := by
  obtain ⟨l, y, hr, hq⟩ := Runs.of_acts_test (l := answeredActs)
    (q := fun l _ => decide (l.countP storesFrame = 1)) (by decide +kernel)
  exact ⟨l, y, hr, of_decide_eq_true hq, requests_settled hr⟩

/-- **Starts of the voice device.**  Each frame that is taken for one that accepts our call, each
call that is answered and each start of a broadcast has it started once, by way of the prompt
thread; nothing else has. -/
theorem voiceStarts_settled (hr : Run.Runs exec Sys.init l y) :
    (msgHandleAudio.handled l).count .hmiNews + y.app.audioMsgs.count .hmiNews +
        y.app.mp3Msgs.count .stopAudioStart =
      l.countP (isEvent [.accepted, .answered, .broadcastOn]) := by
  have hrelay := mp3MsgHandle.relay msgHandleAudio (p := (· == .stopAudioStart))
    (r := (· == .hmiNews)) (fun {a x _} _ => (posts_relayed a x).1) hr
  have hstarts : (mp3MsgHandle.posted l).countP (· == .stopAudioStart) =
      l.countP (isEvent [.accepted, .answered, .broadcastOn]) :=
    Run.countP_flatMap_of_test fun e _ => posts_start e
  rw [hstarts] at hrelay
  exact hrelay.trans (Nat.zero_add _)

theorem answered_voiceStarts :
    ∃ l y, Run.Runs exec Sys.init l y ∧ (msgHandleAudio.handled l).count .hmiNews = 1 ∧
      (msgHandleAudio.handled l).count .hmiNews + y.app.audioMsgs.count .hmiNews +
        y.app.mp3Msgs.count .stopAudioStart =
      l.countP (isEvent [.accepted, .answered, .broadcastOn]) := by
  obtain ⟨l, y, hr, hq⟩ := Runs.of_acts_test (l := answeredActs)
    (q := fun l _ => decide ((msgHandleAudio.handled l).count .hmiNews = 1)) (by decide +kernel)
  exact ⟨l, y, hr, of_decide_eq_true hq, voiceStarts_settled hr⟩

/-- **Prompts at the end.**  Each frame or second that is taken for the end of a call, and has it
told, makes one prompt, by way of the audio thread; nothing else does. -/
theorem endPrompts_settled (hr : Run.Runs exec Sys.init l y) :
    (mp3MsgHandle.handled l).countP Mp3Msg.isEnd + y.app.mp3Msgs.countP Mp3Msg.isEnd +
        y.app.audioMsgs.countP AudioMsg.isEnd = l.countP endsTold := by
  have hrelay := msgHandleAudio.relay mp3MsgHandle (p := AudioMsg.isEnd) (r := Mp3Msg.isEnd)
    (fun {a x _} _ => (posts_relayed a x).2) hr
  have hends : (msgHandleAudio.posted l).countP AudioMsg.isEnd = l.countP endsTold :=
    Run.countP_flatMap_of_test fun e _ => posts_ending e
  rw [hends] at hrelay
  exact hrelay.trans (Nat.zero_add _)

theorem answered_endPrompts :
    ∃ l y, Run.Runs exec Sys.init l y ∧ (mp3MsgHandle.handled l).countP Mp3Msg.isEnd = 1 ∧
      (mp3MsgHandle.handled l).countP Mp3Msg.isEnd + y.app.mp3Msgs.countP Mp3Msg.isEnd +
        y.app.audioMsgs.countP AudioMsg.isEnd = l.countP endsTold := by
  obtain ⟨l, y, hr, hq⟩ := Runs.of_acts_test (l := answeredActs)
    (q := fun l _ => decide ((mp3MsgHandle.handled l).countP Mp3Msg.isEnd = 1))
    (by decide +kernel)
  exact ⟨l, y, hr, of_decide_eq_true hq, endPrompts_settled hr⟩

end Run

end IntercomSalve
