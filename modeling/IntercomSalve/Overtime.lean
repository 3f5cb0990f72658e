/-
# `Overtime` — whom the timer tells that a call is off

When a call has lasted `Call_max_tim` seconds, `call_overtime_fun` sends one last frame:
in state 1 to `mail_list[0]`, in states 2, 3 and 5 to `mail_list[1]`.  Whether that is the
peer depends on who was rung last, and that on the whole history: on the repeats of state
1, on the switch to the next host at second 30 of state 2, on message 127, and on the lists
of hosts received in between.

The stream is read here as the server reads it (`serverReads`), so the law is about the
bytes sent.  `dialled` is what the steps of a run dial, read off the states before them, and
`dialsIn_sent` says that the server sees just that.  With it the law is exact
(`overtime_iff`).
-/
import IntercomSalve.Reports

namespace IntercomSalve

/-! ## The stream, as the server reads it -/

/-- At most `n` frames, each a command and its payload. -/
def readFrames : Nat → List UInt8 → List (UInt8 × List UInt8)
  | n + 1, _ :: _ :: _ :: _ :: _ :: cmd :: hi :: lo :: rest =>
      (cmd, rest.take (hi.toNat * 256 + lo.toNat)) ::
        readFrames n (rest.drop (hi.toNat * 256 + lo.toNat))
  | _, _ => []

/-- The frames of a stream. -/
def serverReads (bs : List UInt8) : List (UInt8 × List UInt8) := readFrames bs.length bs

/-- A frame, as the server reads it. -/
def Frame.read (f : Frame) : UInt8 × List UInt8 := (UInt8.ofNat f.cmd.code, f.payload)

theorem readFrames_bytes (n : Nat) (f : Frame) (rest : List UInt8) :
    readFrames (n + 1) (f.bytes ++ rest) = f.read :: readFrames n rest := by
  have hlen : (UInt8.ofNat (f.payload.length / 256)).toNat * 256 +
      (UInt8.ofNat (f.payload.length % 256)).toNat = f.payload.length := by
    have hlt := f.length_lt
    rw [UInt8.toNat_ofNat', UInt8.toNat_ofNat']
    omega
  have hbytes : f.bytes ++ rest = 0xAA :: 0xFA :: 0x00 :: 0x00 :: 0x01 ::
      UInt8.ofNat f.cmd.code :: UInt8.ofNat (f.payload.length / 256) ::
      UInt8.ofNat (f.payload.length % 256) :: (f.payload ++ rest) := rfl
  rw [hbytes, readFrames, hlen, List.take_left' rfl, List.drop_left' rfl]
  rfl

theorem readFrames_flatMap (fs : List Frame) {n : Nat} (hn : fs.length ≤ n) :
    readFrames n (fs.flatMap Frame.bytes) = fs.map Frame.read := by
  induction fs generalizing n with
  | nil => cases n <;> rfl
  | cons f fs ih =>
      obtain ⟨m, rfl⟩ : ∃ m, n = m + 1 := ⟨n - 1, by simp only [List.length_cons] at hn; omega⟩
      rw [List.flatMap_cons, readFrames_bytes, ih (by simpa using hn)]
      rfl

/-- **The server reads the frames that were sent.** -/
theorem serverReads_flatMap (fs : List Frame) :
    serverReads (fs.flatMap Frame.bytes) = fs.map Frame.read := by
  refine readFrames_flatMap fs ?_
  induction fs with
  | nil => exact Nat.le_refl 0
  | cons f fs ih =>
      rw [List.flatMap_cons, List.length_append, Frame.length_bytes, List.length_cons]
      omega

/-! ## Calls and cancellations -/

/-- A call to an IMEI, or its cancellation. -/
inductive Dial where
  | call (imei : List UInt8)
  | cancel (imei : List UInt8)
  deriving DecidableEq

/-- What a frame dials. -/
def Dial.ofFrame (f : UInt8 × List UInt8) : Option Dial :=
  if f.1 = 0x03 ∧ f.2.getD 1 0 = DialReqReqCall.call1.code then some (.call (f.2.drop 2))
  else if f.1 = 0x03 ∧ f.2.getD 1 0 = DialReqReqCall.call2.code then some (.cancel (f.2.drop 2))
  else none

def Dial.called? : Dial → Option (List UInt8)
  | .call imei => some imei
  | .cancel _ => none

/-- What a stream dials. -/
def dialsIn (bs : List UInt8) : List Dial := (serverReads bs).filterMap Dial.ofFrame

/-- The IMEI of the last call. -/
def lastCalled (ds : List Dial) : Option (List UInt8) := (ds.filterMap Dial.called?).getLast?

/-- Every call is followed by a cancellation with its IMEI, but for the IMEIs in `p`. -/
def CancelledBut (p : List UInt8 → Prop) : List Dial → Prop
  | [] => True
  | .call imei :: ds => (.cancel imei ∈ ds ∨ p imei) ∧ CancelledBut p ds
  | .cancel _ :: ds => CancelledBut p ds

theorem cancelledBut_cancel {p : List UInt8 → Prop} {ds : List Dial} {imei : List UInt8} :
    CancelledBut p (ds ++ [.cancel imei]) ↔ CancelledBut (fun i => i = imei ∨ p i) ds := by
  induction ds with
  | nil => exact Iff.rfl
  | cons d ds ih =>
      cases d with
      | call i =>
          have hmem : .cancel i ∈ ds ++ [.cancel imei] ↔ .cancel i ∈ ds ∨ i = imei := by simp
          show (.cancel i ∈ ds ++ [.cancel imei] ∨ p i) ∧ CancelledBut p (ds ++ [.cancel imei]) ↔
            (.cancel i ∈ ds ∨ i = imei ∨ p i) ∧ CancelledBut (fun i => i = imei ∨ p i) ds
          rw [hmem, ih, or_assoc]
      | cancel i => exact ih

theorem cancelledBut_call {p : List UInt8 → Prop} {ds : List Dial} {imei : List UInt8} :
    CancelledBut p (ds ++ [.call imei]) ↔ CancelledBut p ds ∧ p imei := by
  induction ds with
  | nil => simp [CancelledBut]
  | cons d ds ih =>
      cases d with
      | call i =>
          have hmem : .cancel i ∈ ds ++ [.call imei] ↔ Dial.cancel i ∈ ds := by simp
          show (.cancel i ∈ ds ++ [.call imei] ∨ p i) ∧ CancelledBut p (ds ++ [.call imei]) ↔
            ((.cancel i ∈ ds ∨ p i) ∧ CancelledBut p ds) ∧ p imei
          rw [hmem, ih, and_assoc]
      | cancel i => exact ih

theorem lastCalled_call (ds : List Dial) (imei : List UInt8) :
    lastCalled (ds ++ [.call imei]) = some imei := by
  simp [lastCalled, Dial.called?]

theorem lastCalled_cancel (ds : List Dial) (imei : List UInt8) :
    lastCalled (ds ++ [.cancel imei]) = lastCalled ds := by
  simp [lastCalled, Dial.called?]

/-! ## What a step dials -/

/-- What a second of the call dials. -/
def overtimeDials (s : App) : List Dial :=
  let tim := s.call.callUserTim + 1
  if s.call.callUserOperation = 1 then
    (if tim % 3 = 0 then [.call (s.call.imei 0)] else []) ++
      (if tim > callMaxTim then [.cancel (s.call.imei 0)] else [])
  else if s.call.callUserOperation = 2 then
    (if tim = callMaxTim / 2 then
      [.cancel (s.call.imei 0), .call (s.call.imei (nextHost s.call))] else []) ++
      (if tim > callMaxTim then [.cancel (s.call.imei 1)] else [])
  else if s.call.callUserOperation = 3 ∧ ¬ s.link.heartbeatTim > callReceptionTimeout ∧
      tim > callMaxTim then [.cancel (s.call.imei 1)]
  else []

/-- What a step dials: the first host by messages 123 and 127 and by the repeats, the next
one at second 30. -/
def dialsOf (a : Act) (x : Sys) : List Dial :=
  match a, x.app.socketMsgs with
  | .socket _, .msg123 :: _ => [.call (x.app.call.imei 0)]
  | .socket _, .msg126 :: _ => overtimeDials x.app
  | .socket _, .msg127 :: _ => [.call (x.app.call.imei 0), .cancel (x.app.call.imei 0)]
  | _, _ => []

/-- What a run has dialled. -/
def dialled (l : List (Run.Step Act Sys)) : List Dial := l.flatMap fun e => dialsOf e.act e.pre

@[simp] theorem dial_call (road : UInt8) (imei : Mem) :
    Dial.ofFrame (ringFrame .call1 road imei).read = some (.call (imei.slice 0 15)) := rfl

@[simp] theorem dial_cancel (road : UInt8) (imei : Mem) :
    Dial.ofFrame (ringFrame .call2 road imei).read = some (.cancel (imei.slice 0 15)) := rfl

/-- Other commands dial nothing. -/
theorem dial_other {f : Frame} (h : f.cmd ≠ .instruction3) : Dial.ofFrame f.read = none := by
  have hcode : UInt8.ofNat f.cmd.code ≠ 0x03 := by
    cases hc : f.cmd with
    | instruction3 => exact absurd hc h
    | _ => decide
  unfold Dial.ofFrame
  rw [if_neg fun h' => hcode h'.1, if_neg fun h' => hcode h'.1]

theorem overtimeFrames_dials (s : App) :
    ((overtimeFrames s).map Frame.read).filterMap Dial.ofFrame = overtimeDials s := by
  have hif : ∀ (p : Prop) [Decidable p] (fs : List Frame) (ds : List Dial),
      (fs.map Frame.read).filterMap Dial.ofFrame = ds →
      ((if p then fs else []).map Frame.read).filterMap Dial.ofFrame = if p then ds else [] := by
    intro p _ fs ds h
    by_cases hp : p
    · rw [if_pos hp, if_pos hp, h]
    · rw [if_neg hp, if_neg hp]
      rfl
  unfold overtimeFrames overtimeDials
  dsimp only
  split
  · rw [List.map_append, List.filterMap_append, hif _ _ _ rfl, hif _ _ _ rfl]
    rfl
  · split
    · rw [List.map_append, List.filterMap_append, hif _ _ _ rfl, hif _ _ _ rfl]
      rfl
    · next h1 h2 =>
        by_cases hq : s.link.heartbeatTim > callReceptionTimeout
        · rw [if_pos hq, if_neg fun h => h.2.1 hq]
          rfl
        · rw [if_neg hq]
          by_cases h3 : s.call.callUserOperation = 3
          · rw [if_pos h3, hif _ _ _ rfl]
            simp only [h3, hq, not_false_eq_true, true_and]
            rfl
          · have hno : ¬ (s.call.callUserOperation = 3 ∧
                ¬ s.link.heartbeatTim > callReceptionTimeout ∧
                s.call.callUserTim + 1 > callMaxTim) := fun h => h3 h.1
            have hanswer : ∀ f : Frame, f.cmd = .instruction6 →
                ([f].map Frame.read).filterMap Dial.ofFrame = [] := by
              intro f hf
              simp [dial_other (show f.cmd ≠ .instruction3 by rw [hf]; decide)]
            rw [if_neg h3, if_neg hno]
            split
            · exact (hif _ _ [] (hanswer _ rfl)).trans (ite_self _)
            · rfl

/-- **What a step sends is what it dials.** -/
theorem effectOf_dials (a : Act) (x : Sys) :
    ((effectOf a x).frames.map Frame.read).filterMap Dial.ofFrame = dialsOf a x := by
  have hone : ∀ f : Frame, f.cmd ≠ .instruction3 →
      ([f].map Frame.read).filterMap Dial.ofFrame = [] := by
    intro f hf
    simp [dial_other hf]
  cases a with
  | isCmd =>
      have hframe : ∀ c, ((frameEffect c x.app).frames.map Frame.read).filterMap Dial.ofFrame =
          [] := by
        intro c
        cases c with
        | instruction4 =>
            unfold frameEffect dialEffect
            dsimp only
            split <;> rfl
        | instruction5 =>
            unfold frameEffect calledEffect
            dsimp only
            split
            · rfl
            · exact hone _ (by simp [answerFrame, dialFrame, Frame.own])
            · rfl
        | instruction34 =>
            unfold frameEffect broadcastEffect
            dsimp only
            split <;> rfl
        | _ => rfl
      simp only [effectOf, dialsOf]
      split
      · exact hframe _
      · rfl
  | socket io =>
      unfold effectOf dialsOf
      cases x.app.socketMsgs with
      | nil => rfl
      | cons m ms =>
          cases m with
          | msg126 => exact overtimeFrames_dials x.app
          | msg125 =>
              simp only [messageEffect, messageFrames]
              split
              · rfl
              · exact hone _ (by simp [packetFrame, Frame.own])
          | _ => rfl
  | _ => rfl

/-- The frames of a run. -/
theorem sent_of_run {l : List (Run.Step Act Sys)} {y : Sys} (hr : Run.Runs exec Sys.init l y) :
    y.app.sent = (l.flatMap fun e => (effectOf e.act e.pre).frames).flatMap Frame.bytes := by
  induction hr with
  | nil => rfl
  | @snoc l y z a hr he ih =>
      have hy : Reachable y := ⟨l, hr⟩
      rw [(exec_eq_some.mp he).sent_eq hy.handleOk, ih]
      simp [List.flatMap_append]

/-- **The server sees what a run dials.** -/
theorem dialsIn_sent {l : List (Run.Step Act Sys)} {y : Sys} (hr : Run.Runs exec Sys.init l y) :
    dialsIn y.app.sent = dialled l := by
  have hmap : ∀ l : List (Run.Step Act Sys),
      ((l.flatMap fun e => (effectOf e.act e.pre).frames).map Frame.read).filterMap Dial.ofFrame =
        dialled l := by
    intro l
    induction l with
    | nil => rfl
    | cons e l ih =>
        rw [List.flatMap_cons, List.map_append, List.filterMap_append, ih, effectOf_dials]
        rfl
  unfold dialsIn
  rw [sent_of_run hr, serverReads_flatMap, hmap]

/-! ## The law -/

/-- The call has lasted too long, and its end is announced. -/
def lastsTooLong (s : App) : Prop :=
  s.call.callUserTim + 1 > callMaxTim ∧
    (s.call.callUserOperation = 1 ∨ s.call.callUserOperation = 2 ∨
      (s.call.callUserOperation = 3 ∨ s.call.callUserOperation = 5) ∧
        ¬ s.link.heartbeatTim > callReceptionTimeout)

instance (s : App) : Decidable (lastsTooLong s) := by unfold lastsTooLong; infer_instance

/-- The step is the second at which the timer ends the call. -/
def timerEnds (e : Run.Step Act Sys) : Prop :=
  match e.act, e.pre.app.socketMsgs with
  | .socket _, .msg126 :: _ => lastsTooLong e.pre.app
  | _, _ => False

/-- The socket thread takes message 126. -/
def takesTimer : Act → List SocketMsg → Bool
  | .socket _, .msg126 :: _ => true
  | _, _ => false

theorem timerEnds_iff {e : Run.Step Act Sys} :
    takesTimer e.act e.pre.app.socketMsgs = true ∧ lastsTooLong e.pre.app ↔ timerEnds e := by
  unfold timerEnds takesTimer
  split <;> simp

instance (e : Run.Step Act Sys) : Decidable (timerEnds e) := decidable_of_iff _ timerEnds_iff

theorem timerEnds_cases {x y : Sys} {a : Act} (h : timerEnds ⟨x, a, y⟩) :
    ∃ io ms, a = .socket io ∧ x.app.socketMsgs = .msg126 :: ms ∧ lastsTooLong x.app := by
  unfold timerEnds at h
  dsimp only at h
  split at h
  · next hms => exact ⟨_, _, rfl, hms, h⟩
  · exact h.elim

/-- Where the timer ends a call, the peer is told: the one called last, or the one whose
call was answered; and no call is left without its cancellation. -/
def TellsPeer (e : Run.Step Act Sys) : Prop :=
  timerEnds e →
    (if e.pre.app.call.callUserOperation = 5 then
      ∃ road, (serverReads (newlySent e)).getLast? =
        some (0x06, [road, CallReturn.return5.code] ++ e.pre.app.call.imei 3)
    else
      ∃ imei, lastCalled (dialsIn e.post.app.sent) = some imei ∧
        (dialsIn (newlySent e)).getLast? = some (.cancel imei)) ∧
    CancelledBut (fun _ => False) (dialsIn e.post.app.sent)

/-- The entry of `mail_list` that the branch picks is the peer, after `ds` was dialled, and
nobody else waits for a cancellation. -/
def PeerIsPicked (ds : List Dial) (s : App) : Prop :=
  if s.call.callUserOperation = 5 then
    s.call.imei 1 = s.call.imei 3 ∧ CancelledBut (fun _ => False) ds
  else if s.call.callUserOperation = 1 then
    ((s.call.callUserTim + 1) % 3 = 0 ∨ lastCalled ds = some (s.call.imei 0)) ∧
      CancelledBut (fun imei => imei = s.call.imei 0) ds
  else
    lastCalled ds = some (s.call.imei 1) ∧ CancelledBut (fun imei => imei = s.call.imei 1) ds

/-- The last frame of the timer, in state 5. -/
theorem overtimeFrames_called {s : App} (h : lastsTooLong s)
    (h5 : s.call.callUserOperation = 5) :
    overtimeFrames s = [answerFrame .return5 s.call.mailListRoad (s.call.mailList 1)] := by
  obtain ⟨ht, h | h | ⟨-, hq⟩⟩ := h
  · rw [h5] at h
    exact absurd h (by decide)
  · rw [h5] at h
    exact absurd h (by decide)
  · have h1 : ¬ s.call.callUserOperation = 1 := by rw [h5]; decide
    have h2 : ¬ s.call.callUserOperation = 2 := by rw [h5]; decide
    have h3 : ¬ s.call.callUserOperation = 3 := by rw [h5]; decide
    unfold overtimeFrames
    dsimp only
    rw [if_neg h1, if_neg h2, if_neg hq, if_neg h3, if_pos h5, if_pos ht]

/-- What the timer dials last. -/
theorem overtimeDials_end {s : App} (h : lastsTooLong s) :
    overtimeDials s =
      if s.call.callUserOperation = 5 then []
      else if s.call.callUserOperation = 1 then
        (if (s.call.callUserTim + 1) % 3 = 0 then [.call (s.call.imei 0)] else []) ++
          [.cancel (s.call.imei 0)]
      else [.cancel (s.call.imei 1)] := by
  obtain ⟨ht, hop⟩ := h
  have hswitch : ¬ s.call.callUserTim + 1 = callMaxTim / 2 := by
    intro heq
    rw [heq] at ht
    exact absurd ht (by decide)
  unfold overtimeDials
  dsimp only
  rcases hop with h1 | h2 | ⟨h3 | h5, hq⟩
  · have h5 : ¬ s.call.callUserOperation = 5 := by rw [h1]; decide
    rw [if_pos h1, if_pos ht, if_neg h5, if_pos h1]
  · have h1 : ¬ s.call.callUserOperation = 1 := by rw [h2]; decide
    have h5 : ¬ s.call.callUserOperation = 5 := by rw [h2]; decide
    rw [if_neg h1, if_pos h2, if_neg hswitch, if_pos ht, if_neg h5, if_neg h1]
    rfl
  · have h1 : ¬ s.call.callUserOperation = 1 := by rw [h3]; decide
    have h2 : ¬ s.call.callUserOperation = 2 := by rw [h3]; decide
    have h5 : ¬ s.call.callUserOperation = 5 := by rw [h3]; decide
    rw [if_neg h1, if_neg h2, if_pos ⟨h3, hq, ht⟩, if_neg h5, if_neg h1]
  · have h1 : ¬ s.call.callUserOperation = 1 := by rw [h5]; decide
    have h2 : ¬ s.call.callUserOperation = 2 := by rw [h5]; decide
    have h3 : ¬ s.call.callUserOperation = 3 := by rw [h5]; decide
    rw [if_neg h1, if_neg h2, if_neg fun h => h3 h.1, if_pos h5]

/-- A cancellation goes to the one called last exactly if that is whom it names, and leaves
nobody waiting exactly if nobody else was. -/
theorem cancel_tells_iff {ds : List Dial} {i : List UInt8} :
    ((∃ imei, lastCalled (ds ++ [.cancel i]) = some imei ∧ some (Dial.cancel i) =
        some (.cancel imei)) ∧ CancelledBut (fun _ => False) (ds ++ [.cancel i])) ↔
      lastCalled ds = some i ∧ CancelledBut (fun imei => imei = i) ds := by
  rw [lastCalled_cancel, cancelledBut_cancel]
  simp only [or_false, Option.some.injEq, Dial.cancel.injEq]
  constructor
  · rintro ⟨⟨imei, hlast, rfl⟩, hall⟩
    exact ⟨hlast, hall⟩
  · rintro ⟨hlast, hall⟩
    exact ⟨⟨i, hlast, rfl⟩, hall⟩

/-- **The second at which the timer ends a call.** -/
theorem Steps.tellsPeer_iff {x y : Sys} {io : Platform} {ms : List SocketMsg} {ds : List Dial}
    (h : Steps x (.socket io) y) (hx : HandleOk x.app) (hms : x.app.socketMsgs = .msg126 :: ms)
    (hlong : lastsTooLong x.app) (hsent : dialsIn y.app.sent = ds ++ overtimeDials x.app) :
    TellsPeer ⟨x, .socket io, y⟩ ↔ PeerIsPicked ds x.app := by
  have hends : timerEnds ⟨x, .socket io, y⟩ := by
    unfold timerEnds
    rw [hms]
    exact hlong
  have hframes : (effectOf (.socket io) x).frames = overtimeFrames x.app := by
    simp only [effectOf, hms]
    rfl
  have hnew : newlySent ⟨x, .socket io, y⟩ = (overtimeFrames x.app).flatMap Frame.bytes := by
    rw [h.newlySent_eq hx, hframes]
  have hnewDials : dialsIn (newlySent ⟨x, .socket io, y⟩) = overtimeDials x.app := by
    unfold dialsIn
    rw [hnew, serverReads_flatMap, overtimeFrames_dials]
  have hdials := overtimeDials_end hlong
  unfold TellsPeer PeerIsPicked
  rw [imp_iff_right hends]
  dsimp only
  by_cases h5 : x.app.call.callUserOperation = 5
  · rw [if_pos h5, if_pos h5, hsent, hdials, if_pos h5, List.append_nil, hnew,
      overtimeFrames_called hlong h5, serverReads_flatMap]
    refine and_congr_left fun _ => ?_
    show (∃ road, some (0x06, [x.app.call.mailListRoad, CallReturn.return5.code] ++
      x.app.call.imei 1) = some (0x06, [road, CallReturn.return5.code] ++ x.app.call.imei 3)) ↔ _
    constructor
    · rintro ⟨road, heq⟩
      exact (List.append_inj (Prod.mk.inj (Option.some.inj heq)).2 rfl).2
    · intro heq
      exact ⟨x.app.call.mailListRoad, by rw [heq]⟩
  rw [if_neg h5, if_neg h5, hnewDials, hsent, hdials, if_neg h5]
  by_cases h1 : x.app.call.callUserOperation = 1
  · rw [if_pos h1, if_pos h1]
    by_cases h3 : (x.app.call.callUserTim + 1) % 3 = 0
    · rw [if_pos h3, ← List.append_assoc]
      refine cancel_tells_iff.trans ?_
      rw [lastCalled_call, cancelledBut_call]
      simp [h3]
    · rw [if_neg h3, List.nil_append]
      refine cancel_tells_iff.trans ?_
      simp [h3]
  · rw [if_neg h1, if_neg h1]
    exact cancel_tells_iff

instance CancelledBut.decide {p : List UInt8 → Prop} [DecidablePred p] :
    (ds : List Dial) → Decidable (CancelledBut p ds)
  | [] => isTrue trivial
  | .call imei :: ds =>
      have := CancelledBut.decide (p := p) ds
      inferInstanceAs (Decidable ((.cancel imei ∈ ds ∨ p imei) ∧ CancelledBut p ds))
  | .cancel _ :: ds => CancelledBut.decide (p := p) ds

instance (ds : List Dial) (s : App) : Decidable (PeerIsPicked ds s) := by
  unfold PeerIsPicked
  infer_instance

/-- **Overtime.**  In a run from power-on, each time the timer ends a call the peer is told
and no call is left dangling, exactly if at each such second the entry of `mail_list` that
the branch picks is the peer, and nobody else waits for a cancellation. -/
theorem overtime_iff {l : List (Run.Step Act Sys)} {y : Sys}
    (hr : Run.Runs exec Sys.init l y) :
    (∀ e ∈ l, TellsPeer e) ↔
      ∀ l₁ e l₂, l = l₁ ++ e :: l₂ → timerEnds e → PeerIsPicked (dialled l₁) e.pre.app := by
  have hstep : ∀ l₁ e l₂, l = l₁ ++ e :: l₂ → timerEnds e →
      (TellsPeer e ↔ PeerIsPicked (dialled l₁) e.pre.app) := by
    intro l₁ e l₂ hl hends
    obtain ⟨hr₁, he⟩ := hr.before hl
    obtain ⟨x, a, z⟩ := e
    have hsent : dialsIn z.app.sent = dialled l₁ ++ dialsOf a x := by
      rw [dialsIn_sent (hr₁.snoc he), dialled, List.flatMap_append]
      simp [dialled]
    obtain ⟨io, ms, rfl, hms, hlong⟩ := timerEnds_cases hends
    have hdials : dialsOf (.socket io) x = overtimeDials x.app := by
      unfold dialsOf
      rw [hms]
    have hx : HandleOk x.app := Reachable.handleOk ⟨l₁, hr₁⟩
    exact (exec_eq_some.mp he).tellsPeer_iff hx hms hlong (hsent.trans (by rw [hdials]))
  constructor
  · intro h l₁ e l₂ hl hends
    exact (hstep l₁ e l₂ hl hends).mp (h e (by simp [hl]))
  · intro h e he hends
    obtain ⟨l₁, l₂, hl⟩ := List.append_of_mem he
    exact (hstep l₁ e l₂ hl hends).mpr (h l₁ e l₂ hl hends) hends

/-- A second of a call: the tick, and message 126. -/
def callASecond : List Act := [.timerHeartbeat Platform.silent, .socket Platform.silent]

/-- Two hosts. -/
def twoHostsFrame : List UInt8 :=
  [0xAA, 0xFA, 0x00, 0x00, 0x01, 0x15, 0x00, 0x1F] ++ List.replicate 15 0x37 ++ [0x2C] ++
    List.replicate 15 0x38

/-- Power-on, the hosts `bs` and the button of channel 1: the first host is called. -/
def buttonActs (bs : List UInt8) : List Act :=
  [.socket Platform.silent, .audio Platform.silent, .socketEvent (.readInd bs.length), .recv bs,
    .isCmd, .isCmd, .uart3Event, .audio (Platform.reads [0x53, 0x59, 0, 0, 1, 0, 0, 1]),
    .socket Platform.silent]

/-- Nobody answers for a minute: the call and its repeats are cancelled. -/
theorem unanswered_overtime :
    ∃ l y, Run.Runs exec Sys.init l y ∧ (∃ e ∈ l, timerEnds e) ∧ ∀ e ∈ l, TellsPeer e := by
  obtain ⟨l, y, hr, hq⟩ := Runs.of_acts_test
    (l := buttonActs hostsFrame ++ (List.replicate 61 callASecond).flatten)
    (q := fun l _ => decide (∃ e ∈ l, timerEnds e) && Run.everySplit (fun l₁ e =>
      decide (timerEnds e → PeerIsPicked (dialled l₁) e.pre.app)) l) (by decide +kernel)
  obtain ⟨hends, hall⟩ := (Bool.and_eq_true _ _).mp hq
  exact ⟨l, y, hr, of_decide_eq_true hends, (overtime_iff hr).mpr fun l₁ e l₂ hl =>
    of_decide_eq_true (Run.everySplit_iff.mp hall _ _ _ hl)⟩

/-- The first of two hosts is reached after half a minute, and does not answer: the
cancellation goes to the second. -/
theorem lateRinging_not_overtime :
    ∃ l y, Run.Runs exec Sys.init l y ∧ ¬ ∀ e ∈ l, TellsPeer e := by
  obtain ⟨l, y, hr, hq⟩ := Runs.of_acts_test
    (l := buttonActs twoHostsFrame ++ (List.replicate 31 callASecond).flatten ++
      [.socketEvent (.readInd 10), .recv [0xAA, 0xFA, 0x00, 0x00, 0x01, 0x04, 0x00, 0x02, 0x31,
        0x31], .isCmd, .isCmd] ++ (List.replicate 30 callASecond).flatten)
    (q := fun l _ => l.any fun e => decide (timerEnds e) &&
      decide (e.pre.app.call.callUserOperation ≠ 5) &&
      decide (lastCalled (dialsIn e.post.app.sent) = some (List.replicate 15 0x37)) &&
      decide ((dialsIn (newlySent e)).getLast? = some (.cancel (List.replicate 15 0x38))))
    (by decide +kernel)
  refine ⟨l, y, hr, fun h => ?_⟩
  obtain ⟨e, he, hq⟩ := List.any_eq_true.mp hq
  simp only [Bool.and_eq_true, decide_eq_true_eq] at hq
  obtain ⟨⟨⟨hends, h5⟩, hlast⟩, hcancel⟩ := hq
  have htold := (h e he hends).1
  rw [if_neg h5, hlast, hcancel] at htold
  obtain ⟨imei, hcalled, htold⟩ := htold
  obtain rfl := Option.some.inj hcalled
  exact absurd htold (by decide)

end IntercomSalve
