/-
# `CallState` — the moves of `call_user_operation`

    0 → 1  a button            1 → 2        our call rings
    0 → 5  a call comes in     1, 2 → 3     our call is accepted
    x → 0  the call is over

The answers 0x31, 0x32 and 0x34 are taken in every state, so an answer that comes
too late, twice or out of order makes another move.  A run keeps to the list exactly
if every such answer is read while the call it answers is under way
(`callMoves_iff`); the state 4 is never reached either way.
-/
import IntercomSalve.Session

namespace IntercomSalve

/-- The frame of command `c` that the next pass reads has the code `code`. -/
def readsCode (x : Sys) (c : SocketInstruction) (code : UInt8) : Prop :=
  frameAt x = some c ∧ x.app.rx.byteAt 9 = code

instance (x : Sys) (c : SocketInstruction) (code : UInt8) : Decidable (readsCode x c code) := by
  unfold readsCode
  infer_instance

/-- The audio thread reads a button frame. -/
def readsButton (a : Act) (x : Sys) : Prop :=
  ∃ io ms, a = .audio io ∧ x.app.audioMsgs = .uart3Read :: ms ∧
    isUart3Frame (readTemp io x.app).uart.temp ∧ (readTemp io x.app).uart.temp 4 = 1

/-- `call_user_operation`. -/
def Sys.operation (x : Sys) : UInt8 := x.app.call.callUserOperation

/-- The moves the call may make. -/
inductive CallMove : Run.Step Act Sys → Prop
  | stays {e : Run.Step Act Sys} : e.post.operation = e.pre.operation → CallMove e
  | over {e : Run.Step Act Sys} : e.post.operation = 0 → CallMove e
  | button {e : Run.Step Act Sys} :
      readsButton e.act e.pre → e.pre.operation = 0 → e.post.operation = 1 → CallMove e
  | called {e : Run.Step Act Sys} :
      e.act = .isCmd → readsCode e.pre .instruction5 DialReqReqCall.call1.code →
      e.pre.app.call.isMailListALL = 0 → e.pre.operation = 0 → e.post.operation = 5 → CallMove e
  | ringing {e : Run.Step Act Sys} :
      e.act = .isCmd → readsCode e.pre .instruction4 CallReturn.return1.code →
      e.pre.operation = 1 → e.post.operation = 2 → CallMove e
  | accepted {e : Run.Step Act Sys} :
      e.act = .isCmd →
      readsCode e.pre .instruction4 CallReturn.return2.code ∨
        readsCode e.pre .instruction4 CallReturn.return4.code →
      e.pre.operation = 1 ∨ e.pre.operation = 2 → e.post.operation = 3 → CallMove e

/-- An answer to our call is read while that call is under way: ringing while it calls
or rings, acceptance until it is connected. -/
structure AnswerInTime (e : Run.Step Act Sys) : Prop where
  ringing : e.act = .isCmd → readsCode e.pre .instruction4 CallReturn.return1.code →
    e.pre.operation = 1 ∨ e.pre.operation = 2
  accepted : e.act = .isCmd →
    readsCode e.pre .instruction4 CallReturn.return2.code ∨
      readsCode e.pre .instruction4 CallReturn.return4.code →
    e.pre.operation = 1 ∨ e.pre.operation = 2 ∨ e.pre.operation = 3

/-! ## One step -/

theorem Steps.operation_eq {x y : Sys} {a : Act} (h : Steps x a y) :
    y.operation = ((eventOf a x).after x.app.session).callUserOperation := by
  have hs := congrArg Session.callUserOperation h.session_eq
  exact hs

theorem frameEvent_dial {x : Sys} {r : CallReturn} (h : readsCode x .instruction4 r.code) :
    eventOf .isCmd x = dialEvent x.app ∧
      CallReturn.ofCode (x.app.rx.byteAt 9) = some r :=
  ⟨eventOf_isCmd h.1, CallReturn.ofCode_eq_some.mpr h.2⟩

theorem eventOf_return1 {x : Sys} (h : readsCode x .instruction4 CallReturn.return1.code) :
    eventOf .isCmd x = .ringing := by
  obtain ⟨he, hc⟩ := frameEvent_dial h
  rw [he, dialEvent, hc]

theorem eventOf_accepted {x : Sys}
    (h : readsCode x .instruction4 CallReturn.return2.code ∨
      readsCode x .instruction4 CallReturn.return4.code) :
    eventOf .isCmd x = .accepted := by
  rcases h with h | h
  · obtain ⟨he, hc⟩ := frameEvent_dial h
    rw [he, dialEvent, hc]
  · obtain ⟨he, hc⟩ := frameEvent_dial h
    rw [he, dialEvent, hc]

/-- A message of the socket thread leaves the state, or ends the call. -/
theorem messageEvent_operation (m : SocketMsg) (s : App) (t : Session) :
    ((messageEvent m s).after t).callUserOperation = t.callUserOperation ∨
      ((messageEvent m s).after t).callUserOperation = 0 := by
  unfold messageEvent
  repeat' split
  all_goals first | exact Or.inl rfl | exact Or.inr rfl

theorem promptEvent_operation (m : Mp3Msg) (s : App) (t : Session) :
    ((promptEvent m s).after t).callUserOperation = t.callUserOperation := by
  unfold promptEvent
  repeat' split
  all_goals rfl

theorem recordEvent_operation (len : Nat) (s : App) (t : Session) :
    ((recordEvent len s).after t).callUserOperation = t.callUserOperation := by
  unfold recordEvent
  repeat' split
  all_goals rfl

/-- A step in time makes one of the moves. -/
theorem Steps.callMove {x y : Sys} {a : Act} (h : Steps x a y) (hin : AnswerInTime ⟨x, a, y⟩) :
    CallMove ⟨x, a, y⟩ := by
  have hop := h.operation_eq
  have hfrom := eventOf_from a x
  generalize eventOf a x = e at hop hfrom
  cases hfrom with
  | nothing => exact .stays hop
  | @frame c hc =>
      have hframe := frameEvent_is c x.app
      generalize frameEvent c x.app = e at hop hframe
      cases hframe with
      | ringing hb =>
          rcases hin.ringing rfl ⟨hc, hb⟩ with h1 | h2
          · exact .ringing rfl ⟨hc, hb⟩ h1 hop
          · exact .stays (hop.trans h2.symm)
      | accepted hb =>
          have hcode := hb.imp (And.intro hc) (And.intro hc)
          rcases hin.accepted rfl hcode with h1 | h2 | h3
          · exact .accepted rfl hcode (Or.inl h1) hop
          · exact .accepted rfl hcode (Or.inr h2) hop
          · exact .stays (hop.trans h3.symm)
      | busy _ _ _ => exact .over hop
      | refused _ _ => exact .over hop
      | hungUp _ _ _ => exact .over hop
      | answered hall hb h0 => exact .called rfl ⟨hc, hb⟩ hall h0 hop
      | nothing => exact .stays hop
      | marked _ _ _ => exact .stays hop
      | unmarked _ _ _ => exact .stays hop
      | broadcastOn _ _ => exact .stays hop
      | broadcastOff _ _ => exact .stays hop
  | @message io m ms hm =>
      rcases messageEvent_operation m x.app x.app.session with hk | h0
      · exact .stays (hop.trans hk)
      · exact .over (hop.trans h0)
  | @audio io m ms hm =>
      cases m with
      | uart3Read =>
          simp only [audioEvent] at hop
          split at hop
          · next hb => exact .button ⟨io, ms, rfl, hm, hb.2.2.1, hb.2.2.2.1⟩ hb.2.2.2.2.2 hop
          · exact .stays hop
      | _ => exact .stays hop
  | prompt hm => exact .stays (hop.trans (promptEvent_operation _ _ _))
  | record => exact .stays (hop.trans (recordEvent_operation _ _ _))

/-- A step that makes one of the moves is in time. -/
theorem Steps.answerInTime {x y : Sys} {a : Act} (h : Steps x a y) (hmove : CallMove ⟨x, a, y⟩) :
    AnswerInTime ⟨x, a, y⟩ := by
  constructor
  · rintro rfl hcode
    have h2 : y.operation = 2 := by
      rw [h.operation_eq, eventOf_return1 hcode]
      rfl
    cases hmove with
    | stays hk => exact Or.inr (hk.symm.trans h2)
    | «over» h0 => exact absurd (h2.symm.trans h0) (by decide)
    | button _ _ h1 => exact absurd (h2.symm.trans h1) (by decide)
    | called _ _ _ _ h5 => exact absurd (h2.symm.trans h5) (by decide)
    | ringing _ _ h1 _ => exact Or.inl h1
    | accepted _ _ _ h3 => exact absurd (h2.symm.trans h3) (by decide)
  · rintro rfl hcode
    have h3 : y.operation = 3 := by
      rw [h.operation_eq, eventOf_accepted hcode]
      rfl
    cases hmove with
    | stays hk => exact Or.inr (Or.inr (hk.symm.trans h3))
    | «over» h0 => exact absurd (h3.symm.trans h0) (by decide)
    | button _ _ h1 => exact absurd (h3.symm.trans h1) (by decide)
    | called _ _ _ _ h5 => exact absurd (h3.symm.trans h5) (by decide)
    | ringing _ _ _ h2 => exact absurd (h3.symm.trans h2) (by decide)
    | accepted _ _ h12 _ => exact h12.imp_right Or.inl

/-! ## Runs -/

/-- The state of the call after an event. -/
theorem Event.after_operation (e : Event) (s : Session) :
    (e.after s).callUserOperation = s.callUserOperation ∨
      (e.after s).callUserOperation ∈ ([0, 1, 2, 3, 5] : List UInt8) := by
  cases e with
  | button | ringing | accepted | ended | answered | timedOut => exact Or.inr (by simp [after])
  | _ => exact Or.inl rfl

/-- **The state 4 is never reached.** -/
theorem Reachable.operation_ne_four {x : Sys} (h : Reachable x) : x.operation ≠ 4 := by
  refine h.invariant (I := fun x => x.operation ≠ 4) (by decide) ?_
  intro x a y hx hs h4
  rw [hs.operation_eq] at h4
  rcases (eventOf a x).after_operation x.app.session with hk | hmem
  · exact hx (hk.symm.trans h4)
  · rw [h4] at hmem
    exact absurd hmem (by decide)

/-- **The call state machine.**  A run makes the listed moves only, exactly if every
answer is read in time. -/
theorem callMoves_iff {l : List (Run.Step Act Sys)} {y : Sys} (hr : Run.Runs exec Sys.init l y) :
    (∀ e ∈ l, CallMove e ∧ e.post.operation ≠ 4) ↔ ∀ e ∈ l, AnswerInTime e := by
  have hsteps : ∀ e ∈ l, Reachable e.post ∧ Steps e.pre e.act e.post := by
    intro e he
    obtain ⟨hpre, hexec⟩ := hr.steps e he
    exact ⟨hpre.snoc hexec, exec_eq_some.mp hexec⟩
  constructor
  · intro h e he
    exact (hsteps e he).2.answerInTime (h e he).1
  · intro h e he
    exact ⟨(hsteps e he).2.callMove (h e he), (hsteps e he).1.operation_ne_four⟩

/-- A call comes in and is answered. -/
theorem incomingCall_callMoves :
    ∃ l y, Run.Runs exec Sys.init l y ∧ y.operation = 5 ∧
      ∀ e ∈ l, CallMove e ∧ e.post.operation ≠ 4 := by
  have hr := Runs.of_acts (l := [.socketEvent (.readInd 25), .socket Platform.silent,
    .recv [0xAA, 0xFA, 0x00, 0x00, 0x01, 0x05, 0x00, 0x11, 0x31, 0x31,
      0x38, 0x36, 0x31, 0x32, 0x33, 0x34, 0x35, 0x36, 0x37, 0x38, 0x39, 0x30, 0x31, 0x32, 0x33],
    .isCmd]) rfl
  refine ⟨_, _, hr, rfl, (callMoves_iff hr).mpr ?_⟩
  simp only [List.forall_mem_cons]
  refine ⟨⟨nofun, nofun⟩, ⟨nofun, nofun⟩, ⟨nofun, nofun⟩, ⟨?_, ?_⟩,
    fun e he => absurd he List.not_mem_nil⟩
  · intro _ hcode
    exact absurd hcode.1 (by decide)
  · rintro _ (hcode | hcode)
    · exact absurd hcode.1 (by decide)
    · exact absurd hcode.1 (by decide)

/-- The answer 0x31 starts a call while the device is idle: 0 → 2. -/
theorem lateRinging_not_callMoves :
    ∃ l y, Run.Runs exec Sys.init l y ∧ ¬ ∀ e ∈ l, CallMove e ∧ e.post.operation ≠ 4 := by
  have hr := Runs.of_acts (l := [.socketEvent (.readInd 10), .socket Platform.silent,
    .recv [0xAA, 0xFA, 0x00, 0x00, 0x01, 0x04, 0x00, 0x02, 0x31, 0x31], .isCmd]) rfl
  refine ⟨_, _, hr, fun h => ?_⟩
  simp only [List.forall_mem_cons] at h
  obtain ⟨-, -, -, ⟨hmove, -⟩, -⟩ := h
  cases hmove with
  | stays hk => exact absurd hk (by decide)
  | «over» h0 => exact absurd h0 (by decide)
  | button _ _ h1 => exact absurd h1 (by decide)
  | called _ _ _ _ h5 => exact absurd h5 (by decide)
  | ringing _ _ h1 _ => exact absurd h1 (by decide)
  | accepted _ _ h12 _ => exact absurd h12 (by decide)

end IntercomSalve
