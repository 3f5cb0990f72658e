/-
# `OneSession` — a call and a broadcast at the same time

Call voice and broadcast voice go into the same ring, so the two modes should exclude
each other.  An incoming call asks for `is_mail_list_ALL` before it is answered; the
button, the answers to our own call and the start of a broadcast ask for nothing.  So
the modes exclude each other in a run exactly if those three come at the right time
(`oneSession_iff`).
-/
import IntercomSalve.CallState

namespace IntercomSalve

/-- A broadcast is on during a call. -/
def Mixed (x : Sys) : Prop := x.app.call.isMailListALL = 1 ∧ x.operation ≠ 0

instance (x : Sys) : Decidable (Mixed x) := by unfold Mixed; infer_instance

/-- The audio thread takes a button frame that starts a call. -/
def startsCall (a : Act) (x : Sys) : Prop :=
  ∃ io ms, a = .audio io ∧ x.app.audioMsgs = .uart3Read :: ms ∧ buttonStarts io x.app

/-- The next pass reads an answer that puts our call on: ringing, or accepted. -/
def readsAnswer (a : Act) (x : Sys) : Prop :=
  a = .isCmd ∧ (readsCode x .instruction4 CallReturn.return1.code ∨
    readsCode x .instruction4 CallReturn.return2.code ∨
      readsCode x .instruction4 CallReturn.return4.code)

/-- The next pass reads the first frame of a broadcast. -/
def startsBroadcast (a : Act) (x : Sys) : Prop :=
  a = .isCmd ∧ frameAt x = some .instruction34 ∧ x.app.rx.byteAt 8 = 1 ∧
    x.app.call.isMailListALL = 0

/-- A call starts or goes on only without a broadcast, and a broadcast starts only
without a call. -/
structure OneAtATime (e : Run.Step Act Sys) : Prop where
  button : startsCall e.act e.pre → e.pre.app.call.isMailListALL ≠ 1
  answer : readsAnswer e.act e.pre → e.pre.app.call.isMailListALL ≠ 1
  broadcast : startsBroadcast e.act e.pre → e.pre.operation = 0

/-! ## One step -/

theorem Steps.broadcast_eq {x y : Sys} {a : Act} (h : Steps x a y) :
    y.app.call.isMailListALL = ((eventOf a x).after x.app.session).isMailListALL := by
  have hs := congrArg Session.isMailListALL h.session_eq
  exact hs

/-- What an event that neither starts a broadcast nor puts a call on makes of the two
modes: each of them stays, or ends. -/
theorem Event.after_modes {e : Event} {s : Session}
    (h : e ∉ [Event.button, .ringing, .accepted, .answered, .broadcastOn]) :
    ((e.after s).isMailListALL = s.isMailListALL ∨ (e.after s).isMailListALL = 0) ∧
      ((e.after s).callUserOperation = s.callUserOperation ∨
        (e.after s).callUserOperation = 0) := by
  cases e with
  | button | ringing | accepted | answered | broadcastOn => exact absurd (by simp) h
  | ended | timedOut => exact ⟨Or.inl rfl, Or.inr rfl⟩
  | broadcastOff | broadcastOver => exact ⟨Or.inr rfl, Or.inl rfl⟩
  | _ => exact ⟨Or.inl rfl, Or.inl rfl⟩

/-- A step at the right time does not mix the modes. -/
theorem Steps.not_mixed {x y : Sys} {a : Act} (h : Steps x a y) (hx : ¬ Mixed x)
    (hone : OneAtATime ⟨x, a, y⟩) : ¬ Mixed y := by
  rintro ⟨hall, hop⟩
  rw [h.broadcast_eq] at hall
  rw [h.operation_eq] at hop
  have hfrom := eventOf_from a x
  generalize eventOf a x = e at hall hop hfrom
  by_cases hmodes : e ∈ [Event.button, .ringing, .accepted, .answered, .broadcastOn]
  · simp only [List.mem_cons, List.not_mem_nil, or_false] at hmodes
    rcases hmodes with rfl | hframe
    · exact hone.button hfrom.button hall
    · have hof : e.ofFrame = true := by rcases hframe with rfl | rfl | rfl | rfl <;> rfl
      obtain ⟨rfl, c, hc, he⟩ := hfrom.ofFrame hof
      have his := frameEvent_is c x.app
      rw [← he] at his
      cases his with
      | ringing hb => exact hone.answer ⟨rfl, Or.inl ⟨hc, hb⟩⟩ hall
      | accepted hb =>
          refine hone.answer ⟨rfl, Or.inr (hb.imp (And.intro hc) (And.intro hc))⟩ hall
      | answered hnone _ _ => exact absurd (hnone.symm.trans hall) (by decide)
      | broadcastOn h8 hnone => exact hop (hone.broadcast ⟨rfl, hc, h8, hnone⟩)
      | _ => simp at hframe
  · obtain ⟨hb, hc⟩ := Event.after_modes (s := x.app.session) hmodes
    refine hx ⟨?_, ?_⟩
    · rcases hb with hb | hb
      · exact hb.symm.trans hall
      · exact absurd (hb.symm.trans hall) (by decide)
    · rcases hc with hc | hc
      · exact fun h0 => hop (hc.trans h0)
      · exact absurd hc hop

theorem eventOf_startsCall {a : Act} {x : Sys} (h : startsCall a x) : eventOf a x = .button := by
  obtain ⟨io, ms, rfl, hm, hb⟩ := h
  simp only [eventOf, hm, audioEvent]
  exact if_pos hb

theorem eventOf_startsBroadcast {a : Act} {x : Sys} (h : startsBroadcast a x) :
    eventOf a x = .broadcastOn := by
  obtain ⟨rfl, hc, h8, hall⟩ := h
  rw [eventOf_isCmd hc, frameEvent, broadcastEvent, if_pos h8, if_pos hall]

theorem eventOf_readsAnswer {a : Act} {x : Sys} (h : readsAnswer a x) :
    eventOf a x = .ringing ∨ eventOf a x = .accepted := by
  obtain ⟨rfl, h | h⟩ := h
  · exact Or.inl (eventOf_return1 h)
  · exact Or.inr (eventOf_accepted h)

/-- A step that does not mix the modes comes at the right time. -/
theorem Steps.oneAtATime {x y : Sys} {a : Act} (h : Steps x a y) (hy : ¬ Mixed y) :
    OneAtATime ⟨x, a, y⟩ := by
  constructor
  · intro hstart hall
    refine hy ⟨?_, ?_⟩
    · rw [h.broadcast_eq, eventOf_startsCall hstart]
      exact hall
    · rw [h.operation_eq, eventOf_startsCall hstart]
      exact (by decide : (1 : UInt8) ≠ 0)
  · intro hans hall
    refine hy ⟨?_, ?_⟩
    · rw [h.broadcast_eq]
      rcases eventOf_readsAnswer hans with he | he <;> rw [he] <;> exact hall
    · rw [h.operation_eq]
      rcases eventOf_readsAnswer hans with he | he
      · rw [he]
        exact (by decide : (2 : UInt8) ≠ 0)
      · rw [he]
        exact (by decide : (3 : UInt8) ≠ 0)
  · intro hstart
    by_contra hop
    refine hy ⟨?_, ?_⟩
    · rw [h.broadcast_eq, eventOf_startsBroadcast hstart]
      rfl
    · rw [h.operation_eq, eventOf_startsBroadcast hstart]
      exact hop

/-- **One session at a time.**  In a run from power-on a broadcast and a call are never on
together, exactly if buttons, answers and broadcasts come one at a time. -/
theorem oneSession_iff {l : List (Run.Step Act Sys)} {y : Sys}
    (hr : Run.Runs exec Sys.init l y) :
    (∀ e ∈ l, ¬ Mixed e.post) ↔ ∀ e ∈ l, OneAtATime e := by
  refine hr.forall_post_iff (I := fun x => ¬ Mixed x) (by decide) fun x a y _ hx hexec => ?_
  have hstep := exec_eq_some.mp hexec
  exact ⟨hstep.oneAtATime, hstep.not_mixed hx⟩

/-- A frame of a broadcast, with 80 bytes of voice. -/
def broadcastVoiceFrame : List UInt8 :=
  [0xAA, 0xFA, 0x00, 0x00, 0x01, 0x25, 0x00, 0x52, 0x01, 0x01] ++ List.replicate 80 0

/-- A broadcast starts while the device is idle. -/
theorem broadcast_oneSession :
    ∃ l y, Run.Runs exec Sys.init l y ∧ y.app.call.isMailListALL = 1 ∧
      ∀ e ∈ l, ¬ Mixed e.post := by
  have hr := Runs.of_acts (l := [.socketEvent (.readInd 90), .socket Platform.silent,
    .recv broadcastVoiceFrame, .isCmd]) rfl
  refine ⟨_, _, hr, rfl, (oneSession_iff hr).mpr ?_⟩
  simp only [List.forall_mem_cons]
  have hother : ∀ e : Run.Step Act Sys, e.act ≠ .isCmd → (∀ io, e.act ≠ .audio io) →
      OneAtATime e := by
    intro e hne hna
    exact ⟨fun ⟨io, _, h, _⟩ => absurd h (hna io), fun h => absurd h.1 hne,
      fun h => absurd h.1 hne⟩
  refine ⟨hother _ nofun nofun, hother _ nofun nofun, hother _ nofun nofun, ⟨?_, ?_, ?_⟩,
    fun e he => absurd he List.not_mem_nil⟩
  · rintro ⟨io, ms, h, -⟩
    exact nomatch h
  · intro _
    decide
  · intro _
    decide

/-- A broadcast starts during a call. -/
theorem broadcastInCall_not_oneSession :
    ∃ l y, Run.Runs exec Sys.init l y ∧ ¬ ∀ e ∈ l, ¬ Mixed e.post := by
  have hr := Runs.of_acts (l := [.socketEvent (.readInd 115), .socket Platform.silent,
    .recv ([0xAA, 0xFA, 0x00, 0x00, 0x01, 0x05, 0x00, 0x11, 0x31, 0x31] ++
      List.replicate 15 0x37 ++ broadcastVoiceFrame)] ++ List.replicate 19 .isCmd) rfl
  refine ⟨_, _, hr, fun h => ?_⟩
  exact h _ (List.mem_of_getElem? (i := 21) rfl) ⟨by decide, by decide⟩

end IntercomSalve
