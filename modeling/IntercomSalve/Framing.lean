/-
# `Framing` — everything the device transmits is well framed

Some twenty builders share `socket_data_handle`; each writes its command, its length and
its payload behind the five header bytes, and sends as many bytes as it thinks it wrote.

`Steps.wires_eq` says which frames a step sends, as frames.  So the stream is a
concatenation of frames, and since `effectOf` does not look into the buffer, what an
earlier frame left there does not come out again (`effectOf_withHandle`).
-/
import IntercomSalve.Effects
import IntercomSalve.HangUp

namespace IntercomSalve

/-- The bytes given to `KING_SocketSend`, in order: the stream on the socket, if every send
takes all it is given. -/
def App.sent (s : App) : List UInt8 := s.wires.sent

/-- The stream is a concatenation of frames. -/
def WellFramed (bs : List UInt8) : Prop := ∃ fs : List Frame, bs = fs.flatMap Frame.bytes

theorem WellFramed.append {bs : List UInt8} (h : WellFramed bs) (fs : List Frame) :
    WellFramed (bs ++ fs.flatMap Frame.bytes) := by
  obtain ⟨gs, rfl⟩ := h
  exact ⟨gs ++ fs, List.flatMap_append.symm⟩

theorem Effect.after_sent (e : Effect) (w : Wires) :
    (e.after w).sent = w.sent ++ e.frames.flatMap Frame.bytes := by
  unfold Effect.after
  split <;> rfl

/-- **A step sends its frames**, and nothing else. -/
theorem Steps.sent_eq {x y : Sys} {a : Act} (h : Steps x a y) (hx : HandleOk x.app) :
    y.app.sent = x.app.sent ++ (effectOf a x).frames.flatMap Frame.bytes := by
  have hnothing : ∀ bs : List UInt8, bs = bs ++ Effect.none.frames.flatMap Frame.bytes :=
    fun bs => (List.append_nil bs).symm
  unfold App.sent
  rw [h.wires_eq hx]
  cases a with
  | isCmd => exact Effect.after_sent _ _
  | socket io => exact Effect.after_sent _ _
  | audio io =>
      simp only [wiresAfter]
      split
      · next m ms hm =>
          cases m with
          | _ => exact hnothing _
      · exact hnothing _
  | _ => exact hnothing _

/-! ## Nothing comes out again -/

/-- The same state, with other bytes in `socket_data_handle`. -/
def Sys.withHandle (h : Mem) (x : Sys) : Sys := ⟨{ x.app with socketDataHandle := h }, x.atIsCmd⟩

theorem headerAt_withHandle {s : App} {h : Mem} (hh : h.slice 0 5 = s.head) :
    headerAt { s with socketDataHandle := h } ↔ headerAt s := by
  have hbyte : ∀ k, k < 4 → h (0 + k) = s.socketDataHandle (0 + k) := by
    intro k hk
    have hget := congrArg (fun l => l.getD k 0) hh
    simpa only [App.head, Mem.getD_slice _ _ _ _ (show k < 5 by omega)] using hget
  unfold headerAt myStrcmp
  rw [myStrcmpLoop_eq_zero, myStrcmpLoop_eq_zero]
  constructor
  · intro heq k hk
    exact (hbyte k hk).symm.trans (heq k hk)
  · intro heq k hk
    exact (hbyte k hk).trans (heq k hk)

theorem frameAt_withHandle {x : Sys} {h : Mem} (hh : h.slice 0 5 = x.app.head) :
    frameAt (x.withHandle h) = frameAt x := by
  obtain ⟨s, pc⟩ := x
  cases pc with
  | none => rfl
  | some ret =>
      have hcond : (s.rx.handleDeviation < ret ∧ headerAt { s with socketDataHandle := h }) ↔
          (s.rx.handleDeviation < ret ∧ headerAt s) := by
        rw [headerAt_withHandle hh]
      exact if_congr hcond rfl rfl

/-- **What a step sends does not depend on the buffer** behind the header. -/
theorem effectOf_withHandle (a : Act) {x : Sys} {h : Mem} (hh : h.slice 0 5 = x.app.head) :
    effectOf a (x.withHandle h) = effectOf a x := by
  cases a with
  | isCmd =>
      simp only [effectOf, frameAt_withHandle hh]
      cases frameAt x with
      | none => rfl
      | some c => cases c <;> rfl
  | socket io =>
      simp only [effectOf, Sys.withHandle]
      cases x.app.socketMsgs with
      | nil => rfl
      | cons m ms => cases m <;> rfl
  | _ => rfl

/-- Whether a step is possible does not depend on it either. -/
theorem Steps.withHandle {x y : Sys} {a : Act} (hs : Steps x a y) (h : Mem) :
    ∃ z, Steps (x.withHandle h) a z := by
  cases hs with
  | isCmd => exact ⟨_, .isCmd⟩
  | recv hms hle => exact ⟨_, .recv hms hle⟩
  | socket hms hm => exact ⟨_, .socket hms hm⟩
  | audio hms => exact ⟨_, .audio hms⟩
  | mp3 hms => exact ⟨_, .mp3 hms⟩
  | timerHeartbeat => exact ⟨_, .timerHeartbeat⟩
  | timerHeartbeat2 ht => exact ⟨_, .timerHeartbeat2 ht⟩
  | socketEvent => exact ⟨_, .socketEvent⟩
  | uart2Event => exact ⟨_, .uart2Event⟩
  | uart3Event => exact ⟨_, .uart3Event⟩
  | audioRecordCb => exact ⟨_, .audioRecordCb⟩
  | audioPlayCb => exact ⟨_, .audioPlayCb⟩

/-- Whatever earlier frames left in the buffer behind the header, the step sends the same
bytes. -/
def NoLeftover (e : Run.Step Act Sys) : Prop :=
  ∀ h : Mem, h.slice 0 5 = e.pre.app.head →
    ∃ z bs, exec e.act (e.pre.withHandle h) = some z ∧
      e.post.app.sent = e.pre.app.sent ++ bs ∧ z.app.sent = e.pre.app.sent ++ bs

theorem Steps.noLeftover {x y : Sys} {a : Act} (hs : Steps x a y) (hx : HandleOk x.app) :
    NoLeftover ⟨x, a, y⟩ := by
  intro h hh
  obtain ⟨z, hz⟩ := hs.withHandle h
  have hzok : HandleOk (x.withHandle h).app := .of_head hh hx
  refine ⟨z, _, exec_eq_some.mpr hz, hs.sent_eq hx, ?_⟩
  rw [hz.sent_eq hzok, effectOf_withHandle a hh]
  rfl

/-! ## Runs -/

theorem Reachable.wellFramed {x : Sys} (h : Reachable x) : WellFramed x.app.sent := by
  have hinv : HandleOk x.app ∧ WellFramed x.app.sent := by
    refine Reachable.invariant (I := fun x => HandleOk x.app ∧ WellFramed x.app.sent) h
      ⟨⟨rfl, rfl, rfl, rfl, rfl⟩, [], rfl⟩ ?_
    intro x a y hx hs
    refine ⟨.of_head hs.head_eq hx.1, ?_⟩
    rw [hs.sent_eq hx.1]
    exact hx.2.append _
  exact hinv.2

/-- **Everything the device transmits is well framed.**  After every run from power-on the
stream is a concatenation of frames and the header bytes of the buffer are what they were;
and no step of it sends a byte that an earlier frame left in the buffer. -/
theorem sent_wellFramed {l : List (Run.Step Act Sys)} {y : Sys} (hr : Run.Runs exec Sys.init l y) :
    WellFramed y.app.sent ∧ HandleOk y.app ∧ ∀ e ∈ l, NoLeftover e := by
  have hy : Reachable y := ⟨l, hr⟩
  refine ⟨hy.wellFramed, hy.handleOk, fun e he => ?_⟩
  obtain ⟨hreach, hexec⟩ := hr.steps e he
  exact (exec_eq_some.mp hexec).noLeftover (Reachable.handleOk hreach)

/-- The log-in, and the answer to a call. -/
theorem loginAnswer_wellFramed :
    ∃ l y, Run.Runs exec Sys.init l y ∧ y.app.sent.length = 23 + 25 ∧
      (WellFramed y.app.sent ∧ HandleOk y.app ∧ ∀ e ∈ l, NoLeftover e) := by
  have hr := Runs.of_acts (l := [.socket Platform.silent, .socketEvent .connectRsp,
    .socket Platform.silent, .socketEvent (.readInd 25), .recv (peerFrame 0x31 0x37), .isCmd]) rfl
  exact ⟨_, _, hr, rfl, sent_wellFramed hr⟩

end IntercomSalve
