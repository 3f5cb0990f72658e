/-
# `Relay` — relay commands, posted by address

`MSG_EVT_UART3_SEND` carries the address of one of four command buffers, and the audio
thread writes to UART3 what stands there when it gets to the message.  So a command is
replaced if the buffer is filled again while the message waits; one chunk with a call and
its hang-up is enough.

The queue is one of `Lib.Pointers`, and the law about it is exact: in a run from power-on
what is written is what was posted, and what waits will be, exactly if no step fills a
buffer that a waiting message points to with other bytes (`relay_iff`).
-/
import IntercomSalve.Lib.Pointers
import IntercomSalve.Framing

namespace IntercomSalve

/-- The waiting messages, the commands posted, and those written to UART3. -/
def App.relayQueue (s : App) : Pointers.Queue Uart3Buf (List UInt8) :=
  ⟨s.wires.pending, s.wires.posted, s.wires.written⟩

/-- The byte strings given to `KING_UartWrite`, and those the waiting messages point to, are
the ones the buffers held when the messages were posted. -/
def DeliveredAsPosted (s : App) : Prop := Pointers.Intact s.uart3Bytes s.relayQueue

instance (s : App) : Decidable (DeliveredAsPosted s) := by
  unfold DeliveredAsPosted Pointers.Intact
  infer_instance

/-- A step that fills a buffer to which a message points fills in what stands there. -/
def LeavesWaiting (e : Run.Step Act Sys) : Prop :=
  ∀ c ∈ (effectOf e.act e.pre).command, c.pData ∈ e.pre.app.wires.pending →
    c.bytes = (e.pre.app.uart3Bytes c.pData).take c.bytes.length

instance (e : Run.Step Act Sys) : Decidable (LeavesWaiting e) := by
  unfold LeavesWaiting
  infer_instance

/-- A command replaces the front of a buffer: nothing changes exactly if it stands there. -/
theorem fill_eq_iff {bs old : List UInt8} : bs ++ old.drop bs.length = old ↔
    bs = old.take bs.length := by
  constructor
  · intro h
    conv_rhs => rw [← h]
    exact (List.take_left' rfl).symm
  · intro h
    calc bs ++ old.drop bs.length = old.take bs.length ++ old.drop bs.length := by rw [← h]
      _ = old := List.take_append_drop _ old

/-- **Posting a command** leaves the queue intact exactly if it leaves alone what waits. -/
theorem command_intact_iff {w : Wires} {c : Command}
    (h : Pointers.Intact w.uart3Bytes ⟨w.pending, w.posted, w.written⟩) :
    Pointers.Intact (w.command c).uart3Bytes
        ⟨(w.command c).pending, (w.command c).posted, (w.command c).written⟩ ↔
      (c.pData ∈ w.pending → c.bytes = (w.uart3Bytes c.pData).take c.bytes.length) := by
  have hpost : (⟨(w.command c).pending, (w.command c).posted, (w.command c).written⟩ :
      Pointers.Queue Uart3Buf (List UInt8)) =
      Pointers.Queue.post c.pData (c.bytes ++ (w.uart3Bytes c.pData).drop c.bytes.length)
        ⟨w.pending, w.posted, w.written⟩ := rfl
  have hself : (w.command c).uart3Bytes c.pData =
      c.bytes ++ (w.uart3Bytes c.pData).drop c.bytes.length := Function.update_self _ _ _
  have hother : ∀ k, k ≠ c.pData → (w.command c).uart3Bytes k = w.uart3Bytes k :=
    fun k hk => Function.update_of_ne hk _ _
  rw [hpost, Pointers.intact_post, Pointers.intact_rewrite h, ← fill_eq_iff]
  constructor
  · rintro ⟨hkeep, -⟩ hmem
    rw [← hself]
    exact hkeep _ hmem
  · intro hkeep
    refine ⟨fun k hk => ?_, hself⟩
    by_cases heq : k = c.pData
    · subst heq
      rw [hself]
      exact hkeep hk
    · exact hother k heq

theorem effect_intact_iff {w : Wires} {e : Effect}
    (h : Pointers.Intact w.uart3Bytes ⟨w.pending, w.posted, w.written⟩) :
    Pointers.Intact (e.after w).uart3Bytes
        ⟨(e.after w).pending, (e.after w).posted, (e.after w).written⟩ ↔
      ∀ c ∈ e.command, c.pData ∈ w.pending →
        c.bytes = (w.uart3Bytes c.pData).take c.bytes.length := by
  cases hc : e.command with
  | none =>
      have hsend : e.after w = w.send e.frames := by simp only [Effect.after, hc]
      rw [hsend]
      exact iff_of_true h fun c hc => nomatch hc
  | some c =>
      have hsend : e.after w = (w.send e.frames).command c := by simp only [Effect.after, hc]
      rw [hsend, command_intact_iff (w := w.send e.frames) h]
      constructor
      · rintro hone d hd
        obtain rfl := Option.some.inj hd
        exact hone
      · intro hall
        exact hall c rfl

/-- The audio thread writes what the first waiting message points to. -/
theorem audio_intact {io : Platform} {s : App} {m : AudioMsg} {ms : List AudioMsg}
    (hms : s.audioMsgs = m :: ms) (hq : DeliveredAsPosted s) :
    let w := audioWires io m s { s.wires with pending := ms.filterMap AudioMsg.pData? }
    Pointers.Intact w.uart3Bytes ⟨w.pending, w.posted, w.written⟩ := by
  have hpend : s.wires.pending = m.pData?.toList ++ ms.filterMap AudioMsg.pData? := by
    unfold App.wires
    rw [hms]
    cases m <;> rfl
  unfold DeliveredAsPosted App.relayQueue at hq
  rw [hpend] at hq
  cases m with
  | uart3Send b => exact Pointers.intact_take.mpr hq
  | _ => exact hq

/-- **A step** from a state in which the queue is intact. -/
theorem Steps.deliveredAsPosted_iff {x y : Sys} {a : Act} (h : Steps x a y) (hx : HandleOk x.app)
    (hq : DeliveredAsPosted x.app) : DeliveredAsPosted y.app ↔ LeavesWaiting ⟨x, a, y⟩ := by
  have hw := h.wires_eq hx
  have hlaw : DeliveredAsPosted y.app ↔ Pointers.Intact (wiresAfter a x).uart3Bytes
      ⟨(wiresAfter a x).pending, (wiresAfter a x).posted, (wiresAfter a x).written⟩ := by
    rw [← hw]
    rfl
  have hnone : ∀ {p : Prop}, p → (∀ c, (effectOf a x).command ≠ some c) →
      (p ↔ LeavesWaiting ⟨x, a, y⟩) :=
    fun hp hno => iff_of_true hp fun c hc => absurd hc (hno c)
  rw [hlaw]
  cases a with
  | isCmd => exact effect_intact_iff (w := x.app.wires) hq
  | socket io => exact effect_intact_iff (w := { x.app.wires with reports := _ }) hq
  | audio io =>
      refine hnone ?_ (by simp [effectOf, Effect.none])
      cases h with
      | audio hms =>
          simp only [wiresAfter, hms]
          exact audio_intact hms hq
  | _ => exact hnone hq (by simp [effectOf, Effect.none])

/-- **Relay commands.**  In a run from power-on every command is delivered as it was posted,
exactly if no step fills a buffer to which a waiting message points with other bytes. -/
theorem relay_iff {l : List (Run.Step Act Sys)} {y : Sys} (hr : Run.Runs exec Sys.init l y) :
    (∀ e ∈ l, DeliveredAsPosted e.post.app) ↔ ∀ e ∈ l, LeavesWaiting e :=
  hr.forall_post_iff (I := fun x => DeliveredAsPosted x.app) (by decide)
    fun _ _ _ hreach hy he =>
      (exec_eq_some.mp he).deliveredAsPosted_iff (Reachable.handleOk hreach) hy

/-- A call comes in, the relay closes, the peer hangs up, the relay opens. -/
theorem answeredCall_relay :
    ∃ l y, Run.Runs exec Sys.init l y ∧
      y.app.wires.written = [[0x63, 0x6d, 0x64, 0x02, 0, 0, 0, 0, 0, 0],
        [0x63, 0x6d, 0x64, 0x02, 1, 1, 0, 0, 0, 0], [0x63, 0x6d, 0x64, 0x02, 1, 0, 0, 0, 0, 0]] ∧
      ∀ e ∈ l, DeliveredAsPosted e.post.app := by
  obtain ⟨l, y, hr, hwritten, hall⟩ := Runs.of_acts_all (l := [.socket Platform.silent,
    .audio Platform.silent, .socketEvent (.readInd 25), .recv (peerFrame 0x31 0x37)] ++
      List.replicate 19 .isCmd ++ [.audio Platform.silent, .socketEvent (.readInd 25),
        .recv (peerFrame 0x32 0x37), .isCmd, .isCmd, .audio Platform.silent,
        .audio Platform.silent])
    (p := fun e => decide (LeavesWaiting e)) (q := fun y => y.app.wires.written ==
      [[0x63, 0x6d, 0x64, 0x02, 0, 0, 0, 0, 0, 0], [0x63, 0x6d, 0x64, 0x02, 1, 1, 0, 0, 0, 0],
        [0x63, 0x6d, 0x64, 0x02, 1, 0, 0, 0, 0, 0]]) (by decide +kernel)
  exact ⟨l, y, hr, by simpa using hwritten,
    (relay_iff hr).mpr fun e he => of_decide_eq_true (hall e he)⟩

/-- A call and its hang-up in one chunk: the command that closes the relay is replaced before
the audio thread gets to it. -/
theorem callAndHangUp_not_relay :
    ∃ l y, Run.Runs exec Sys.init l y ∧ ¬ ∀ e ∈ l, DeliveredAsPosted e.post.app := by
  obtain ⟨l, y, hr, hq⟩ := Runs.of_acts_test (l := [.socketEvent (.readInd 50),
    .socket Platform.silent, .recv (peerFrame 0x31 0x37 ++ peerFrame 0x32 0x37)] ++
      List.replicate 19 .isCmd)
    (q := fun l _ => l.any fun e => !decide (DeliveredAsPosted e.post.app)) (by decide +kernel)
  obtain ⟨e, he, hno⟩ := List.any_eq_true.mp hq
  exact ⟨l, y, hr, fun h => absurd (h e he) (by simpa using hno)⟩

end IntercomSalve
