/-
# `Microphone` — in which call a voice packet was recorded

`AudioRecordCb` records only during a call, but message 125 asks nothing: it sends a packet
whenever `audio_data_en` says that one waits.  A call that ends leaves its packets waiting,
and the messages 125 that were posted for them.  They are dropped by `MSG_EVT_HMI_NEWS`, at
the start of the voice device in the next call, and till then every message 125 sends one.

Beside a run the number of the call is kept, and for every byte of `audio_data` the call in
which it was recorded.  A packet that is sent in step was recorded in the call that is on,
exactly if the calls before have left none (`sentInCall_iff`).
-/
import IntercomSalve.SendRing

namespace IntercomSalve

/-! ## The calls of a run -/

/-- How many calls have begun, and in which of them each byte of `audio_data` was recorded. -/
structure CallBytes where
  calls : Nat
  recordedIn : Nat → Option Nat

/-- A step, observed: a call begins where the state leaves 0, and `len` bytes of samples fill
a quarter as many bytes of the ring. -/
def CallBytes.after (h : CallBytes) (e : Run.Step Act Sys) : CallBytes where
  calls :=
    if e.pre.app.call.callUserOperation = 0 ∧ e.post.app.call.callUserOperation ≠ 0 then h.calls + 1
    else h.calls
  recordedIn :=
    match eventOf e.act e.pre with
    | .recorded len => fun n =>
        if e.pre.app.record.audioDataNum ≤ n ∧
            n < e.pre.app.record.audioDataNum + (len / 2 + 1) / 2 then some h.calls
        else h.recordedIn n
    | _ => h.recordedIn

/-- The calls of a run. -/
def callBytes (l : List (Run.Step Act Sys)) : CallBytes :=
  l.foldl CallBytes.after ⟨0, fun _ => none⟩

/-- A packet that the step sends is sent in a call, and all its bytes were recorded in that
call. -/
def SentInCall (h : CallBytes) (e : Run.Step Act Sys) : Prop :=
  eventOf e.act e.pre = .voiceSent →
    e.pre.app.call.callUserOperation ≠ 0 ∧
      e.post.app.sent = e.pre.app.sent ++ ([0xAA, 0xFA, 0x00, 0x00, 0x01, 0x09, 0x00, 0x50] ++
        (e.pre.app.record.audioData.ptr e.pre.app.record.audioDataNumSend).slice 0 80) ∧
      ∀ n < 80, h.recordedIn (e.pre.app.record.audioDataNumSend + n) = some h.calls

/-! ## The packets that ended calls have left -/

/-- How many of the waiting packets are left from calls that are over: all of them where a
call ends, and those not yet sent until the ring is emptied. -/
def leftAfter (left : Nat) (e : Run.Step Act Sys) : Nat :=
  match eventOf e.act e.pre with
  | .ended | .timedOut => e.pre.app.record.audioDataEn
  | .talk => 0
  | .voiceSent => left - 1
  | _ => left

/-- The packets that the ended calls of a run have left. -/
def leftOver (l : List (Run.Step Act Sys)) : Nat := l.foldl leftAfter 0

/-- The waiting packets were recorded in the calls `w`, the oldest one first, and the first
`left` of them are from calls that are over. -/
structure WaitingOk (h : CallBytes) (left : Nat) (w : List Nat) (s : App) : Prop where
  en : w.length = s.record.audioDataEn
  num : s.record.audioDataNum % 80 = 0
  num_lt : s.record.audioDataNum < audioDataMax
  recorded : ∀ j c, w[j]? = some c → 80 * (w.length - j) ≤ audioDataMax →
    ∀ pos < audioDataMax, (pos + 80 * (w.length - j)) % audioDataMax = s.record.audioDataNum →
      ∀ n < 80, h.recordedIn (pos + n) = some c
  le_calls : ∀ c ∈ w, c ≤ h.calls
  left_le : left ≤ w.length
  current : ∀ j c, w[j]? = some c → (left ≤ j ↔ c = h.calls ∧ s.call.callUserOperation ≠ 0)

/-- Between calls all packets are left over. -/
theorem WaitingOk.idle {h : CallBytes} {left : Nat} {w : List Nat} {s : App}
    (hw : WaitingOk h left w s) (h0 : s.call.callUserOperation = 0) : left = w.length := by
  rcases Nat.lt_or_ge left w.length with hlt | hge
  · exact absurd h0 ((hw.current left _ (List.getElem?_eq_getElem hlt)).mp (Nat.le_refl left)).2
  · exact Nat.le_antisymm hw.left_le hge

/-- What leaves the ring alone: a call may begin, go on or end. -/
theorem WaitingOk.other {h h' : CallBytes} {left left' : Nat} {w : List Nat} {s t : App}
    (hw : WaitingOk h left w s) (hen : t.record.audioDataEn = s.record.audioDataEn)
    (hnum : t.record.audioDataNum = s.record.audioDataNum)
    (hbytes : h'.recordedIn = h.recordedIn)
    (hcalls : h'.calls = if s.call.callUserOperation = 0 ∧ t.call.callUserOperation ≠ 0 then
      h.calls + 1 else h.calls)
    (hover : t.call.callUserOperation = 0 → left' = w.length)
    (hon : t.call.callUserOperation ≠ 0 → left' = left) : WaitingOk h' left' w t := by
  have hle : h.calls ≤ h'.calls := by
    rw [hcalls]
    split <;> omega
  refine ⟨hw.en.trans hen.symm, by rw [hnum]; exact hw.num, by rw [hnum]; exact hw.num_lt, ?_,
    fun c hc => Nat.le_trans (hw.le_calls c hc) hle, ?_, ?_⟩
  · rw [hbytes, hnum]
    exact hw.recorded
  · by_cases h0 : t.call.callUserOperation = 0
    · exact Nat.le_of_eq (hover h0)
    · rw [hon h0]
      exact hw.left_le
  · intro j c hj
    obtain ⟨hlt, -⟩ := List.getElem?_eq_some_iff.mp hj
    by_cases h0 : t.call.callUserOperation = 0
    · rw [hover h0]
      exact iff_of_false (by omega) fun hc => hc.2 h0
    rw [hon h0]
    by_cases hs0 : s.call.callUserOperation = 0
    · -- a call begins: all that waits is from a call before
      have hmem := hw.le_calls c (List.mem_of_getElem? hj)
      rw [hw.idle hs0, hcalls, if_pos ⟨hs0, h0⟩]
      exact iff_of_false (by omega) fun hc => by omega
    · rw [hcalls, if_neg fun hc => hs0 hc.1, hw.current j c hj]
      exact and_congr_right fun _ => iff_of_true hs0 h0

/-- **A packet is sent**: the oldest one leaves. -/
theorem WaitingOk.sent {h : CallBytes} {left : Nat} {w : List Nat} {s t : App}
    (hw : WaitingOk h left w s)
    (hen : t.record.audioDataEn = s.record.audioDataEn - 1)
    (hnum : t.record.audioDataNum = s.record.audioDataNum)
    (hop : t.call.callUserOperation = s.call.callUserOperation) :
    WaitingOk h (left - 1) w.tail t := by
  have hlen : w.tail.length = w.length - 1 := List.length_tail
  have hpos := hw.en
  have htail : ∀ j : Nat, w.tail[j]? = w[j + 1]? := fun j => List.getElem?_tail
  refine ⟨by omega, by rw [hnum]; exact hw.num, by rw [hnum]; exact hw.num_lt, ?_,
    fun c hc => hw.le_calls c (List.mem_of_mem_tail hc), ?_, ?_⟩
  · intro j c hj
    rw [htail] at hj
    rw [show w.tail.length - j = w.length - (j + 1) by omega, hnum]
    exact hw.recorded (j + 1) c hj
  · have hle := hw.left_le
    omega
  · intro j c hj
    rw [htail] at hj
    rw [hop, ← hw.current (j + 1) c hj]
    omega

/-- **A frame is recorded**: its packet is the youngest one. -/
theorem WaitingOk.record {h h' : CallBytes} {left : Nat} {w : List Nat} {s t : App}
    (hw : WaitingOk h left w s) (hin : s.call.callUserOperation ≠ 0)
    (hen : t.record.audioDataEn = s.record.audioDataEn + 1)
    (hnum : t.record.audioDataNum = recordWrap (s.record.audioDataNum + 80))
    (hop : t.call.callUserOperation = s.call.callUserOperation) (hcalls : h'.calls = h.calls)
    (hbytes : h'.recordedIn = fun n => if s.record.audioDataNum ≤ n ∧
      n < s.record.audioDataNum + 80 then some h.calls else h.recordedIn n) :
    WaitingOk h' left (w ++ [h.calls]) t := by
  have hlen : (w ++ [h.calls]).length = w.length + 1 := by
    rw [List.length_append, List.length_singleton]
  have hpos := hw.num
  have hlt := hw.num_lt
  refine ⟨by rw [hlen, hw.en, hen], ?_, ?_, ?_, ?_, ?_, ?_⟩
  · rw [hnum]
    unfold recordWrap audioDataMax
    split <;> omega
  · rw [hnum]
    unfold recordWrap audioDataMax at *
    split <;> omega
  · intro j c hj hroom pos hposlt hat n hn
    rw [hlen] at hroom hat
    rw [hnum] at hat
    rw [hbytes]
    dsimp only
    rcases Nat.lt_or_ge j w.length with hlt' | hge
    · -- an older packet stands apart from the one that is written now
      rw [List.getElem?_append_left hlt'] at hj
      have hsame : (pos + 80 * (w.length - j)) % audioDataMax = s.record.audioDataNum := by
        unfold recordWrap audioDataMax at *
        split at hat <;> omega
      rw [if_neg]
      · exact hw.recorded j c hj (by omega) pos hposlt hsame n hn
      · unfold audioDataMax at *
        omega
    · obtain ⟨rfl, rfl⟩ := Mem.eq_of_getElem?_concat hj hge
      rw [if_pos]
      unfold recordWrap audioDataMax at *
      split at hat <;> omega
  · intro c hc
    rw [hcalls]
    rcases List.mem_append.mp hc with hc | hc
    · exact hw.le_calls c hc
    · exact Nat.le_of_eq (List.mem_singleton.mp hc)
  · have hle := hw.left_le
    omega
  · intro j c hj
    rw [hcalls, hop]
    rcases Nat.lt_or_ge j w.length with hlt' | hge
    · rw [List.getElem?_append_left hlt'] at hj
      exact hw.current j c hj
    · obtain ⟨rfl, rfl⟩ := Mem.eq_of_getElem?_concat hj hge
      exact iff_of_true hw.left_le ⟨rfl, hin⟩

/-! ## Steps -/

/-- **A step keeps the waiting packets in their calls.** -/
theorem WaitingOk.step {h : CallBytes} {left : Nat} {w : List Nat} {x y : Sys} {a : Act}
    (hw : WaitingOk h left w x.app) (hs : Steps x a y) (hframe : WholeFrame ⟨x, a, y⟩) :
    ∃ w', WaitingOk (h.after ⟨x, a, y⟩) (leftAfter left ⟨x, a, y⟩) w' y.app := by
  have hsession := hs.session_eq
  have hfrom := eventOf_from a x
  unfold CallBytes.after leftAfter
  dsimp only
  generalize eventOf a x = ev at hsession hfrom ⊢
  have hen : y.app.record.audioDataEn = (ev.after x.app.session).audioDataEn :=
    congrArg Session.audioDataEn hsession
  have hnum : y.app.record.audioDataNum = (ev.after x.app.session).audioDataNum :=
    congrArg Session.audioDataNum hsession
  have hop : y.app.call.callUserOperation = (ev.after x.app.session).callUserOperation :=
    congrArg Session.callUserOperation hsession
  have hsame : y.app.call.callUserOperation = x.app.call.callUserOperation →
      (if x.app.call.callUserOperation = 0 ∧ y.app.call.callUserOperation ≠ 0 then h.calls + 1
        else h.calls) = h.calls := by
    intro heq
    rw [heq]
    exact if_neg fun hc => hc.2 hc.1
  cases ev with
  | recorded len =>
      obtain ⟨buff, rfl, hin⟩ := hfrom.recorded
      obtain rfl := hframe buff len rfl
      exact ⟨_, hw.record hin.inCall hen hnum hop (hsame hop) rfl⟩
  | talk =>
      refine ⟨[], hen.symm, by rw [hnum]; rfl, by rw [hnum]; exact (by decide : 0 < audioDataMax),
        ?_, ?_, Nat.le_refl 0, ?_⟩
      · intro j c hj
        exact nomatch hj
      · intro c hc
        exact nomatch hc
      · intro j c hj
        exact nomatch hj
  | voiceSent =>
      refine ⟨w.tail, ?_⟩
      rw [hsame hop]
      exact hw.sent hen hnum hop
  | ended | timedOut =>
      exact ⟨w, hw.other hen hnum rfl rfl (fun _ => hw.en.symm) fun h0 => absurd hop h0⟩
  | button | ringing | accepted | answered =>
      have hne : y.app.call.callUserOperation ≠ 0 := by
        rw [hop]
        simp [Event.after]
      exact ⟨w, hw.other hen hnum rfl rfl (fun h0 => absurd h0 hne) fun _ => rfl⟩
  | _ =>
      exact ⟨w, hw.other hen hnum rfl rfl (fun h0 => hw.idle (hop.symm.trans h0)) fun _ => rfl⟩

/-! ## Runs -/

theorem waitingOk_of_run {l : List (Run.Step Act Sys)} {y : Sys} (hr : Run.Runs exec Sys.init l y)
    (hframes : ∀ e ∈ l, WholeFrame e) : ∃ w, WaitingOk (callBytes l) (leftOver l) w y.app := by
  induction hr with
  | nil =>
      refine ⟨[], rfl, rfl, by decide, ?_, ?_, Nat.le_refl 0, ?_⟩
      · intro j c hj
        exact nomatch hj
      · intro c hc
        exact nomatch hc
      · intro j c hj
        exact nomatch hj
  | @snoc l y z a hr he ih =>
      obtain ⟨w, hw⟩ := ih fun e hm => hframes e (List.mem_append_left _ hm)
      have hstep := hw.step (exec_eq_some.mp he) (hframes _ (by simp))
      rwa [callBytes, leftOver, List.foldl_append, List.foldl_append]

/-- The packet at the read position, in step, was recorded in the call that is on exactly if
none is left over. -/
theorem WaitingOk.sends_iff {h : CallBytes} {left : Nat} {w : List Nat} {x y : Sys} {a : Act}
    (hw : WaitingOk h left w x.app) (hs : Steps x a y) (hx : HandleOk x.app)
    (hsend : x.app.record.audioDataNumSend < audioDataMax) (hev : eventOf a x = .voiceSent)
    (hstep : InStep x.app.record) : SentInCall h ⟨x, a, y⟩ ↔ left = 0 := by
  have hfrom := eventOf_from a x
  rw [hev] at hfrom
  have hlen : w.length ≠ 0 := by
    rw [hw.en]
    exact hfrom.voiceSent.2
  have holdest : w[0]? = some w[0] := List.getElem?_eq_getElem (Nat.pos_of_ne_zero hlen)
  have hrecorded := hw.recorded 0 _ holdest (by rw [Nat.sub_zero, hw.en]; exact hstep.2) _ hsend
    (by rw [Nat.sub_zero, hw.en]; exact hstep.1.symm)
  have hcurrent := hw.current 0 _ holdest
  have hpacket := hs.packet_sent hx hev
  unfold SentInCall
  rw [imp_iff_right hev]
  dsimp only
  constructor
  · rintro ⟨hin, -, hbytes⟩
    have hcall := (hrecorded 0 (by decide)).symm.trans (hbytes 0 (by decide))
    exact Nat.le_zero.mp (hcurrent.mpr ⟨Option.some.inj hcall, hin⟩)
  · rintro rfl
    obtain ⟨hcall, hin⟩ := hcurrent.mp (Nat.le_refl 0)
    refine ⟨hin, hpacket, fun n hn => ?_⟩
    rw [hrecorded n hn, hcall]

/-- **The microphone.**  In a run from power-on with whole frames, in which every packet is
sent in step, every packet is sent in a call and was recorded in that call, exactly if no
message 125 finds a packet that an ended call has left. -/
theorem sentInCall_iff {l : List (Run.Step Act Sys)} {y : Sys} (hr : Run.Runs exec Sys.init l y)
    (hframes : ∀ e ∈ l, WholeFrame e)
    (hstep : ∀ e ∈ l, eventOf e.act e.pre = .voiceSent → InStep e.pre.app.record) :
    (∀ l₁ e l₂, l = l₁ ++ e :: l₂ → SentInCall (callBytes l₁) e) ↔
      ∀ l₁ e l₂, l = l₁ ++ e :: l₂ → eventOf e.act e.pre = .voiceSent → leftOver l₁ = 0 := by
  have hiff : ∀ l₁ e l₂, l = l₁ ++ e :: l₂ → eventOf e.act e.pre = .voiceSent →
      (SentInCall (callBytes l₁) e ↔ leftOver l₁ = 0) := by
    intro l₁ e l₂ hl hev
    obtain ⟨hpre, hexec⟩ := hr.before hl
    have hbefore : ∀ d ∈ l₁, WholeFrame d := fun d hd => hframes d (by simp [hl, hd])
    obtain ⟨w, hw⟩ := waitingOk_of_run hpre hbefore
    have hy : Reachable e.pre := ⟨l₁, hpre⟩
    exact hw.sends_iff (exec_eq_some.mp hexec) hy.handleOk (sendOk_of_run hpre hbefore).send
      hev (hstep e (by simp [hl]) hev)
  constructor
  · intro h l₁ e l₂ hl hev
    exact (hiff l₁ e l₂ hl hev).mp (h l₁ e l₂ hl)
  · intro h l₁ e l₂ hl hev
    exact (hiff l₁ e l₂ hl hev).mpr (h l₁ e l₂ hl hev) hev

/-! ## Two runs -/

/-- Our call is accepted, and the voice device starts. -/
def acceptActs : List Act :=
  [.socketEvent (.readInd 10), .recv acceptedFrame, .isCmd, .isCmd, .isCmd, .isCmd,
    .mp3 Platform.silent, .audio Platform.silent]

/-- The peer hangs up. -/
def hangUpFrame : List UInt8 := [0xAA, 0xFA, 0x00, 0x00, 0x01, 0x04, 0x00, 0x02, 0x31, 0x35]

/-- Two calls, each with a frame that is recorded and sent. -/
theorem twoCalls_sentInCall :
    ∃ l y, Run.Runs exec Sys.init l y ∧ y.app.sent.length = 2 * 88 ∧ (callBytes l).calls = 2 ∧
      ∀ l₁ e l₂, l = l₁ ++ e :: l₂ → SentInCall (callBytes l₁) e := by
  obtain ⟨l, y, hr, hq⟩ := Runs.of_acts_test
    (l := [.socket Platform.connects, .audio Platform.silent] ++ acceptActs ++
      [.audioRecordCb (fun _ => 0) 320, .socket Platform.silent, .socketEvent (.readInd 10),
        .recv hangUpFrame, .isCmd, .isCmd, .audio Platform.silent, .audio Platform.silent,
        .mp3 Platform.silent] ++ acceptActs ++
      [.audioRecordCb (fun _ => 0x40) 320, .socket Platform.silent])
    (q := fun l y => (decide (y.app.sent.length = 2 * 88) && decide ((callBytes l).calls = 2)) &&
      l.all (fun e => e.act.wholeFrame &&
        decide (eventOf e.act e.pre = .voiceSent → InStep e.pre.app.record)) &&
      Run.everySplit (fun l₁ e =>
        decide (eventOf e.act e.pre = .voiceSent → leftOver l₁ = 0)) l) (by decide +kernel)
  simp only [Bool.and_eq_true, decide_eq_true_eq, List.all_eq_true] at hq
  obtain ⟨⟨⟨hlen, hcalls⟩, hsteps⟩, hleft⟩ := hq
  refine ⟨l, y, hr, hlen, hcalls, (sentInCall_iff hr ?_ fun e he => (hsteps e he).2).mpr ?_⟩
  · intro e he
    exact wholeFrame_of_test (hsteps e he).1
  · intro l₁ e l₂ hl
    exact of_decide_eq_true (Run.everySplit_iff.mp hleft _ _ _ hl)

/-- The hang-up comes in just before a frame is recorded: its packet is sent after the call. -/
theorem hangUpFirst_not_sentInCall :
    ∃ l y, Run.Runs exec Sys.init l y ∧
      ¬ ∀ l₁ e l₂, l = l₁ ++ e :: l₂ → SentInCall (callBytes l₁) e := by
  obtain ⟨l, y, hr, hq⟩ := Runs.of_acts_test
    (l := [.socket Platform.connects, .audio Platform.silent] ++ acceptActs ++
      [.socketEvent (.readInd 10), .audioRecordCb (fun _ => 0) 320, .recv hangUpFrame, .isCmd,
        .isCmd, .socket Platform.silent])
    (q := fun l _ => l.any fun e => decide (eventOf e.act e.pre = .voiceSent) &&
      decide (e.pre.app.call.callUserOperation = 0)) (by decide +kernel)
  refine ⟨l, y, hr, fun h => ?_⟩
  obtain ⟨e, he, hq⟩ := List.any_eq_true.mp hq
  obtain ⟨hev, hidle⟩ := (Bool.and_eq_true _ _).mp hq
  obtain ⟨l₁, l₂, hl⟩ := List.append_of_mem he
  exact (h l₁ e l₂ hl (of_decide_eq_true hev)).1 (of_decide_eq_true hidle)

end IntercomSalve
