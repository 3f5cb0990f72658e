/-
# `Markers` — the buttons that are pressed during a call

A button of another channel during a call sets the marker of its channel, one of
`mail_list_road1` to `mail_list_road4`, and posts message 127.  The message takes every
marker that is set and leaves it at 2 (`takeMarkers`), and a refusal that comes in is taken
to be for the first marker above 2 (`breakOtherChannel`).

`Steps.marks_cases` says what any step does to the markers and to the messages 127 that
wait.  So a marker above 2 means that a message 127 still waits (`Reachable.markersOk`):
once the record of a button is sent, nothing is left by which the answer to it could be
told from an answer to the call, and the call is ended by it (`foreign_iff`).
-/
import IntercomSalve.CallTimer
import IntercomSalve.Fills

namespace IntercomSalve

open Goto

/-! ## The markers -/

/-- The four markers. -/
def Call.markers (c : Call) : List UInt8 :=
  [c.mailListRoad1, c.mailListRoad2, c.mailListRoad3, c.mailListRoad4]

/-- The channels that are marked, and not yet recorded. -/
def Call.marked (c : Call) : List UInt8 := c.markers.filter fun m => 3 < m

/-- The messages 127 that wait. -/
def App.waiting (s : App) : Nat := s.socketMsgs.count .msg127

/-- Message 127 sends the last of the marked channels, and 0 when there is none. -/
theorem takeMarkers_fst (c : Call) : (takeMarkers c).1 = c.marked.getLast?.getD 0 := by
  unfold takeMarkers Call.marked Call.markers
  by_cases h1 : 3 < c.mailListRoad1 <;> by_cases h2 : 3 < c.mailListRoad2 <;>
    by_cases h3 : 3 < c.mailListRoad3 <;> by_cases h4 : 3 < c.mailListRoad4 <;>
    simp [h1, h2, h3, h4]

theorem takeMarkers_markers (c : Call) :
    (takeMarkers c).2.markers = c.markers.map fun m => if 3 < m then 2 else m := rfl

theorem takeMarkers_marked (c : Call) : (takeMarkers c).2.marked = [] := by
  unfold Call.marked
  rw [takeMarkers_markers, List.filter_eq_nil_iff]
  intro m hm
  obtain ⟨m', -, rfl⟩ := List.mem_map.mp hm
  split
  · decide
  · next h => simpa using h

/-- A marker above 2 is found. -/
theorem breakOtherChannel_isSome (c : Call) :
    (breakOtherChannel c).isSome ↔ ∃ m ∈ c.markers, 2 < m := by
  unfold breakOtherChannel Call.markers
  by_cases h1 : 2 < c.mailListRoad1
  · simp [h1]
  · by_cases h2 : 2 < c.mailListRoad2
    · simp [h1, h2]
    · by_cases h3 : 2 < c.mailListRoad3
      · simp [h1, h2, h3]
      · by_cases h4 : 2 < c.mailListRoad4
        · simp [h1, h2, h3, h4]
        · simp [h1, h2, h3, h4]

/-! ## Steps that mark nothing -/

/-- Nothing is marked: each marker is as it was, or at most 2. -/
def Unmarks (c d : Call) : Prop := List.Forall₂ (fun m m' => m' = m ∨ m' ≤ 2) c.markers d.markers

theorem Unmarks.of_eq {c d : Call} (h : d.markers = c.markers) : Unmarks c d := by
  unfold Unmarks
  rw [h]
  exact List.forall₂_same.mpr fun _ _ => Or.inl rfl

theorem Unmarks.trans {c d e : Call} (h : Unmarks c d) (h' : Unmarks d e) : Unmarks c e := by
  have hcons : ∀ l₁ l₂ l₃ : List UInt8, List.Forall₂ (fun m m' => m' = m ∨ m' ≤ 2) l₁ l₂ →
      List.Forall₂ (fun m m' => m' = m ∨ m' ≤ 2) l₂ l₃ →
        List.Forall₂ (fun m m' => m' = m ∨ m' ≤ 2) l₁ l₃ := by
    intro l₁ l₂ l₃ h12 h23
    induction h12 generalizing l₃ with
    | nil => exact h23
    | cons hm _ ih =>
        cases h23 with
        | cons hm' h23 =>
            refine .cons ?_ (ih _ h23)
            rcases hm' with rfl | hm'
            · exact hm
            · exact Or.inr hm'
  exact hcons _ _ _ h h'

/-- Then no channel is marked that was not. -/
theorem Unmarks.marked_le {c d : Call} (h : Unmarks c d) : d.marked.length ≤ c.marked.length := by
  have hle : ∀ l l' : List UInt8, List.Forall₂ (fun m m' => m' = m ∨ m' ≤ 2) l l' →
      (l'.filter fun m => 3 < m).length ≤ (l.filter fun m => 3 < m).length := by
    intro l l' h
    induction h with
    | nil => exact Nat.le_refl 0
    | @cons m m' l l' hm _ ih =>
        rcases hm with rfl | hm
        · by_cases h3 : 3 < m'
          · simpa [List.filter_cons, h3] using ih
          · simpa [List.filter_cons, h3] using ih
        · have h3 : ¬ 3 < m' := by
            intro h3
            exact absurd (UInt8.lt_of_lt_of_le h3 hm) (by decide)
          by_cases hm3 : 3 < m
          · simp only [List.filter_cons, h3, hm3, decide_true, decide_false, if_true,
              Bool.false_eq_true, if_false, List.length_cons]
            omega
          · simpa [List.filter_cons, h3, hm3] using ih
  exact hle _ _ h

/-- Nor is a marker above 2 that was not. -/
theorem Unmarks.mem {c d : Call} (h : Unmarks c d) {m : UInt8} (hm : m ∈ d.markers) :
    m ∈ c.markers ∨ m ≤ 2 := by
  have hmem : ∀ l l' : List UInt8, List.Forall₂ (fun m m' => m' = m ∨ m' ≤ 2) l l' → m ∈ l' →
      m ∈ l ∨ m ≤ 2 := by
    intro l l' h hm
    induction h with
    | nil => exact absurd hm List.not_mem_nil
    | cons hab _ ih =>
        rcases List.mem_cons.mp hm with rfl | hm
        · rcases hab with rfl | hle
          · exact Or.inl List.mem_cons_self
          · exact Or.inr hle
        · exact (ih hm).imp_left (List.mem_cons_of_mem _)
  exact hmem _ _ h hm

theorem takeMarkers_unmarks (c : Call) : Unmarks c (takeMarkers c).2 := by
  have hstep : ∀ m : UInt8, (if 3 < m then 2 else m) = m ∨ (if 3 < m then 2 else m) ≤ 2 := by
    intro m
    split
    · exact Or.inr (by decide)
    · exact Or.inl rfl
  unfold Unmarks
  rw [takeMarkers_markers, List.forall₂_map_right_iff]
  exact List.forall₂_same.mpr fun m _ => hstep m

/-- No channel is marked, and no message 127 is posted or taken. -/
structure Leaves (s t : App) : Prop where
  unmarks : Unmarks s.call t.call
  waiting : t.waiting = s.waiting

theorem Leaves.of_shared {s t : App} (h : t.shared = s.shared) : Leaves s t := by
  obtain ⟨hcall, hrest⟩ := Prod.mk.inj h
  obtain ⟨-, hmsgs⟩ := Prod.mk.inj hrest
  refine ⟨.of_eq (by rw [hcall]), ?_⟩
  unfold App.waiting
  rw [hmsgs]

theorem Leaves.trans {s t u : App} (h : Leaves s t) (h' : Leaves t u) : Leaves s u :=
  ⟨h.unmarks.trans h'.unmarks, h'.waiting.trans h.waiting⟩

theorem postSocket_waiting {m : SocketMsg} (hm : m ≠ .msg127) (s : App) :
    (s.postSocket m).waiting = s.waiting := by
  unfold App.postSocket App.waiting
  rw [List.count_append, List.count_singleton]
  simp [hm]

theorem Does.waiting_eq {s t : App} (h : Does s t) : t.waiting = s.waiting := by
  cases h with
  | postSocket m hm =>
      refine postSocket_waiting ?_ s
      rintro rfl
      exact nomatch hm
  | _ => rfl

theorem Tick.leaves {s t : App} (h : Tick s t) : Leaves s t := by
  refine ⟨?_, h.doing.keeps_eq fun _ _ => Does.waiting_eq⟩
  cases h with
  | _ => exact .of_eq rfl

theorem Ticks.leaves {s t : App} (h : Ticks s t) : Leaves s t := by
  induction h with
  | refl => exact .of_shared rfl
  | tail _ hlast ih => exact ih.trans hlast.leaves

/-! ## Frames -/

theorem breakOtherChannel_unmarks {c d : Call} (h : breakOtherChannel c = some d) :
    Unmarks c d := by
  unfold breakOtherChannel at h
  unfold Unmarks Call.markers
  repeat' split at h
  all_goals first | (obtain rfl := Option.some.inj h; simp) | exact nomatch h

theorem dial_unmarks (s : App) : Unmarks s.call (dialReqReqCallReturnHander s).call := by
  have hbusy : Unmarks s.call (dialBusy s).call := by
    unfold dialBusy
    split
    · cases hb : breakOtherChannel s.call with
      | some c => exact breakOtherChannel_unmarks hb
      | none => exact .of_eq rfl
    · exact .of_eq rfl
  have hrefused : Unmarks s.call (dialRefused s).call := by
    unfold dialRefused
    cases hb : breakOtherChannel s.call with
    | some c => exact breakOtherChannel_unmarks hb
    | none => exact .of_eq rfl
  unfold dialReqReqCallReturnHander
  split
  · exact hbusy
  · exact .of_eq rfl
  · exact .of_eq rfl
  · exact .of_eq rfl
  · exact hrefused
  · exact hrefused
  · exact .of_eq rfl

theorem clearVars_unmarks (s : App) : Unmarks s.call (clearVars s).call := by
  unfold Unmarks Call.markers clearVars
  simp

theorem called_unmarks (s : App) : Unmarks s.call (calledReqReqCallReturnHander s).call := by
  have hanswer : Unmarks s.call (calledAnswer s).call := by
    unfold calledAnswer
    split
    · exact .of_eq rfl
    · exact (clearVars_unmarks s).trans (.of_eq rfl)
  have hhangUp : Unmarks s.call (calledHangUp s).call := by
    unfold calledHangUp
    split <;> exact .of_eq rfl
  unfold calledReqReqCallReturnHander
  split
  · exact .of_eq rfl
  · split
    · exact hanswer
    · exact hhangUp
    · exact hhangUp
    · exact .of_eq rfl
    · exact .of_eq rfl

theorem broadcastVoice_call (ret : Nat) (s : App) : (broadcastVoice ret s).state.call = s.call := by
  have hv : (voiceFrame 10 ret (setLength 80 s)).state.call = s.call := by
    unfold voiceFrame
    split <;> rfl
  unfold broadcastVoice
  split
  · next u hu =>
      rw [hu] at hv
      exact hv
  · next u hu =>
      rw [hu] at hv
      exact hv

theorem broadcastFrame_markers (ret : Nat) (s : App) :
    (broadcastFrame ret s).state.call.markers = s.call.markers := by
  unfold broadcastFrame
  split
  · rw [broadcastVoice_call]
    unfold broadcastStart
    split <;> rfl
  · show (broadcastStop (asVoice s)).call.markers = s.call.markers
    unfold broadcastStop
    split <;> rfl

theorem hosts_markers (c : Call) (r : Rx) : (c.hosts r).markers = c.markers := by
  unfold Call.hosts
  dsimp only
  split
  · split <;> rfl
  · rfl

theorem caseOf_unmarks (ret : Nat) (c : SocketInstruction) (s : App) :
    Unmarks s.call (caseOf ret c s).state.call := by
  cases c with
  | instruction4 => exact dial_unmarks s
  | instruction5 => exact called_unmarks s
  | instruction10 =>
      show Unmarks s.call (voiceFrame 8 ret s).state.call
      unfold voiceFrame
      split <;> exact .of_eq rfl
  | instruction21 => exact .of_eq (hosts_markers s.call s.rx)
  | instruction34 => exact .of_eq (broadcastFrame_markers ret s)
  | _ => exact .of_eq rfl

/-- One pass of the loop. -/
theorem isCmd_leaves (ret : Nat) (s : App) : Leaves s (isCmd ret s).state := by
  refine ⟨?_, ?_⟩
  · rcases isCmd_frameAt ret s with ⟨c, -, h⟩ | ⟨-, r, l, h⟩
    · rw [h]
      exact caseOf_unmarks ret c (opened c s)
    · rw [h]
      exact .of_eq rfl
  · unfold App.waiting
    rw [(isCmd_recvSide ret s).socketMsgs]

/-- Message 122 up to the label. -/
theorem message122_leaves (n : Nat) (chunk : List UInt8) (s : App) :
    Leaves s (message122 n chunk s).state := by
  refine ⟨?_, ?_⟩
  · have hcall : (message122 n chunk s).state.call = s.call := by
      unfold message122 resumeVoice
      repeat' split
      all_goals rfl
    exact .of_eq (by rw [hcall])
  · unfold App.waiting
    rw [(message122_recvSide n chunk s).socketMsgs]
    rfl

/-! ## Messages -/

/-- The other messages of the socket thread. -/
theorem socketTestThread_leaves (io : Platform) {m : SocketMsg} (hm : ∀ n, m ≠ .msg122 n)
    (h127 : m ≠ .msg127) (s : App) : Leaves s (socketTestThread io m s) := by
  refine ⟨?_, ?_⟩
  · have hcall : (socketTestThread io m s).call = (innerAfter m s).call :=
      call_of_inner (socketTestThread_inner io m s)
    rw [hcall]
    unfold innerAfter
    split
    · split
      · exact clearVars_unmarks s
      · exact .of_eq rfl
    · split <;> exact .of_eq rfl
    · split
      · exact (clearVars_unmarks _).trans (.of_eq rfl)
      · exact .of_eq rfl
    · exact absurd rfl h127
    · split
      · rw [(audioStopV2_eq _).1]
        exact .of_eq rfl
      · exact .of_eq rfl
    · exact .of_eq rfl
  · obtain ⟨t, r, hdoing, heq⟩ := socketTestThread_eq io hm s
    rw [heq]
    exact hdoing.keeps_eq (f := App.waiting) fun _ _ => Does.waiting_eq

/-- Message 127 takes every marker that is set. -/
theorem message127_marked (s : App) :
    (message127 s).call.marked = [] ∧ Leaves s (message127 s) := by
  have hcall : (message127 s).call = (takeMarkers s.call).2 :=
    call_of_inner (message127_inner s)
  refine ⟨?_, ?_, (message127_doing s).keeps_eq fun _ _ => Does.waiting_eq⟩
  · rw [hcall]
    exact takeMarkers_marked s.call
  · rw [hcall]
    exact takeMarkers_unmarks s.call

theorem socketEventProcessCb_leaves (e : SocketEvent) (s : App) :
    Leaves s (socketEventProcessCb e s) := by
  cases e with
  | connectRsp => exact ⟨.of_eq rfl, postSocket_waiting (by simp) _⟩
  | readInd n => exact ⟨.of_eq rfl, postSocket_waiting (by simp) _⟩
  | _ => exact .of_shared rfl

theorem audioRecordCb_leaves (buff : Mem) (len : Nat) (s : App) :
    Leaves s (audioRecordCb buff len s) := by
  unfold audioRecordCb
  split
  · exact .of_shared rfl
  · split
    · exact .of_shared (audioStopV2_shared s)
    · exact ⟨.of_eq rfl, postSocket_waiting (by simp) _⟩

theorem audioPlayCb_leaves (s : App) : Leaves s (audioPlayCb s).2 := by
  unfold audioPlayCb
  split
  · exact .of_shared rfl
  · exact ⟨.of_eq rfl, rfl⟩

/-! ## Buttons -/

/-- A button frame is read on UART3. -/
def readsButtonFrame (io : Platform) (s : App) : Prop :=
  readsUart3 io s ∧ isUart3Frame (readTemp io s).uart.temp ∧ (readTemp io s).uart.temp 4 = 1

instance (io : Platform) (s : App) : Decidable (readsButtonFrame io s) := by
  unfold readsButtonFrame
  infer_instance

/-- The marker of channel `k`. -/
def Call.marker (c : Call) (k : UInt8) : Option UInt8 :=
  if k = 1 then some c.mailListRoad1
  else if k = 2 then some c.mailListRoad2
  else if k = 3 then some c.mailListRoad3
  else if k = 4 then some c.mailListRoad4
  else none

/-- The button of a channel that is neither in the call nor marked, pressed during a call. -/
def missedButton (io : Platform) (s : App) : Option UInt8 :=
  if readsButtonFrame io s ∧ s.call.callUserOperation ≠ 0 ∧
      s.call.mailListRoad.toNat ≠ ((readTemp io s).uart.temp 7).toNat + 0x30 ∧
      s.call.marker ((readTemp io s).uart.temp 7) = some 0 then
    some ((readTemp io s).uart.temp 7 + 0x30)
  else none

/-- The road of the button that a step reads, if a call is missed by it. -/
def missedRoad (a : Act) (x : Sys) : Option UInt8 :=
  match a, x.app.audioMsgs with
  | .audio io, .uart3Read :: _ => missedButton io x.app
  | _, _ => none

/-- The step takes message 127. -/
def takesRecord (a : Act) (x : Sys) : Bool :=
  match a, x.app.socketMsgs with
  | .socket _, .msg127 :: _ => true
  | _, _ => false

/-- A marker that is set adds its channel. -/
theorem filter_mark {r : UInt8} (hr : 3 < r) (l₁ l₂ : List UInt8) :
    ((l₁ ++ r :: l₂).filter fun m => 3 < m).Perm
      (r :: (l₁ ++ 0 :: l₂).filter fun m => 3 < m) := by
  have h0 : ¬ (3 : UInt8) < 0 := by decide
  simp only [List.filter_append, List.filter_cons, hr, h0, decide_true, decide_false, if_true,
    Bool.false_eq_true, if_false]
  exact List.perm_middle

/-- The channel of the button `s` holds is marked, and message 127 posted. -/
structure Marks (road : UInt8) (s t : App) : Prop where
  above : 3 < road
  markers : ∀ m ∈ t.call.markers, m ∈ s.call.markers ∨ m = road
  marked : t.call.marked.Perm (road :: s.call.marked)
  waiting : t.waiting = s.waiting + 1

theorem postRecord_waiting (s : App) : (s.postSocket .msg127).waiting = s.waiting + 1 := by
  unfold App.postSocket App.waiting
  rw [List.count_append, List.count_singleton]
  rfl

/-- One marker is set where it was 0. -/
theorem postRecord_marks {road : UInt8} {s : App} {c : Call} (l₁ : List UInt8) {l₂ : List UInt8}
    (hroad : 3 < road) (h0 : s.call.markers = l₁ ++ 0 :: l₂) (hc : c.markers = l₁ ++ road :: l₂) :
    Marks road s (App.postSocket .msg127 { s with call := c }) := by
  refine ⟨hroad, ?_, ?_, postRecord_waiting { s with call := c }⟩
  · show ∀ m ∈ c.markers, m ∈ s.call.markers ∨ m = road
    rw [h0, hc]
    intro m hm
    rcases List.mem_append.mp hm with hm | hm
    · exact Or.inl (List.mem_append_left _ hm)
    · rcases List.mem_cons.mp hm with rfl | hm
      · exact Or.inr rfl
      · exact Or.inl (List.mem_append_right _ (List.mem_cons_of_mem _ hm))
  · show c.marked.Perm (road :: s.call.marked)
    unfold Call.marked
    rw [h0, hc]
    exact filter_mark hroad l₁ l₂

/-- A button during a call: its channel is marked if it was not. -/
theorem buttonBusy_marks (s : App) :
    (s.call.marker (s.uart.temp 7) = some 0 → Marks (s.uart.temp 7 + 0x30) s (buttonBusy s)) ∧
      (s.call.marker (s.uart.temp 7) ≠ some 0 → buttonBusy s = s) := by
  unfold buttonBusy Call.marker
  dsimp only
  generalize s.uart.temp 7 = k
  by_cases h1 : k = 1
  · subst h1
    simp only [true_and, if_true]
    refine ⟨fun h => ?_, fun h => if_neg fun h0 => h (by rw [h0])⟩
    have h0 := Option.some.inj h
    rw [if_pos h0]
    exact postRecord_marks [] (by decide) (by rw [Call.markers, h0]; rfl) rfl
  · by_cases h2 : k = 2
    · subst h2
      simp only [h1, false_and, true_and, if_true, if_false]
      refine ⟨fun h => ?_, fun h => if_neg fun h0 => h (by rw [h0])⟩
      have h0 := Option.some.inj h
      rw [if_pos h0]
      exact postRecord_marks [_] (by decide) (by rw [Call.markers, h0]; rfl) rfl
    · by_cases h3 : k = 3
      · subst h3
        simp only [h1, h2, false_and, true_and, if_true, if_false]
        refine ⟨fun h => ?_, fun h => if_neg fun h0 => h (by rw [h0])⟩
        have h0 := Option.some.inj h
        rw [if_pos h0]
        exact postRecord_marks [_, _] (by decide) (by rw [Call.markers, h0]; rfl) rfl
      · by_cases h4 : k = 4
        · subst h4
          simp only [h1, h2, h3, false_and, true_and, if_true, if_false]
          refine ⟨fun h => ?_, fun h => if_neg fun h0 => h (by rw [h0])⟩
          have h0 := Option.some.inj h
          rw [if_pos h0]
          exact postRecord_marks [_, _, _] (by decide) (by rw [Call.markers, h0]; rfl) rfl
        · simp [h1, h2, h3, h4]

theorem buttonCall_leaves (s : App) : Leaves s (buttonCall s) := by
  refine ⟨?_, ?_⟩
  · unfold Unmarks Call.markers buttonCall
    simp
  · let t : App := App.postMp3 (.audio .waitConv) { s with call.callUserOperation := 1 }
    exact postSocket_waiting (m := .msg123) (by simp)
      { t with call.mailListRoad := t.uart.temp 7 + 0x30 }

/-- The other frames of the board. -/
theorem uart3Frame_leaves {s : App} (h : s.uart.temp 4 ≠ 1) : Leaves s (uart3Frame s) := by
  unfold uart3Frame
  rw [if_neg h]
  split
  · exact ⟨.of_eq rfl, postSocket_waiting (by simp) s⟩
  · split
    · exact ⟨.of_eq rfl, postSocket_waiting (by simp) s⟩
    · split
      · exact ⟨.of_eq rfl, postSocket_waiting (by simp) s⟩
      · exact .of_shared rfl

/-- What is read on UART3 marks the channel of a missed button, unless the host is busy, and
marks nothing else. -/
inductive ReadMarks (io : Platform) (s t : App) : Prop
  | marks {road : UInt8} : missedButton io s = some road → s.call.isHostBusy = 0 →
      Marks road s t → ReadMarks io s t
  | ignored {road : UInt8} : missedButton io s = some road → s.call.isHostBusy ≠ 0 →
      t.shared = s.shared → ReadMarks io s t
  | other : missedButton io s = none → Leaves s t → ReadMarks io s t

theorem buttonFrame_marks {io : Platform} {s : App} (hread : readsUart3 io s)
    (hframe : isUart3Frame (readTemp io s).uart.temp) (h4 : (readTemp io s).uart.temp 4 = 1) :
    ReadMarks io s (buttonFrame (readTemp io s)) := by
  have hshared : (readTemp io s).shared = s.shared := rfl
  have hbutton : readsButtonFrame io s := ⟨hread, hframe, h4⟩
  obtain ⟨hmark, hkeep⟩ := buttonBusy_marks (readTemp io s)
  unfold buttonFrame
  by_cases hop : s.call.callUserOperation = 0
  · have hnone : missedButton io s = none := if_neg fun h => h.2.1 hop
    rw [show (readTemp io s).call.callUserOperation = 0 from hop, if_pos rfl]
    split
    · exact .other hnone (.of_shared hshared)
    · exact .other hnone (.trans (.of_shared hshared) (buttonCall_leaves _))
  · rw [if_neg (show ¬ (readTemp io s).call.callUserOperation = 0 from hop)]
    by_cases hmiss : s.call.mailListRoad.toNat ≠ ((readTemp io s).uart.temp 7).toNat + 0x30 ∧
        s.call.marker ((readTemp io s).uart.temp 7) = some 0
    · have hsome : missedButton io s = some ((readTemp io s).uart.temp 7 + 0x30) :=
        if_pos ⟨hbutton, hop, hmiss.1, hmiss.2⟩
      by_cases hbusy : s.call.isHostBusy = 0
      · rw [if_neg (not_not.mpr (show (readTemp io s).call.isHostBusy = 0 from hbusy)),
          if_neg (show ¬ (readTemp io s).call.mailListRoad.toNat = _ from hmiss.1)]
        have hm := hmark hmiss.2
        exact .marks hsome hbusy ⟨hm.above, hm.markers, hm.marked, hm.waiting⟩
      · rw [if_pos (show (readTemp io s).call.isHostBusy ≠ 0 from hbusy)]
        exact .ignored hsome hbusy hshared
    · have hnone : missedButton io s = none := if_neg fun h => hmiss h.2.2
      refine .other hnone ?_
      split
      · exact .of_shared hshared
      · split
        · exact .of_shared hshared
        · next hroad =>
            rw [hkeep fun h0 => hmiss ⟨hroad, h0⟩]
            exact .of_shared hshared

theorem uart3Read_marks (io : Platform) (s : App) : ReadMarks io s (uart3Read io s) := by
  have hshared : (readTemp io s).shared = s.shared := rfl
  unfold uart3Read
  by_cases hread : readsUart3 io s
  · have hguard : ¬ (s.link.mailListTim ≠ 0 ∨ io.uartAvailable < 2) := by
      rintro (h | h)
      · exact h hread.1
      · exact absurd hread.2 (Nat.not_le.mpr h)
    rw [if_neg hguard]
    by_cases hframe : isUart3Frame (readTemp io s).uart.temp
    · rw [if_pos hframe]
      by_cases h4 : (readTemp io s).uart.temp 4 = 1
      · rw [uart3Frame, if_pos h4]
        exact buttonFrame_marks hread hframe h4
      · have hnone : missedButton io s = none := if_neg fun h => h4 h.1.2.2
        exact .other hnone (.trans (.of_shared hshared) (uart3Frame_leaves h4))
    · rw [if_neg hframe]
      exact .other (if_neg fun h => hframe h.1.2.1) (.of_shared hshared)
  · have hguard : s.link.mailListTim ≠ 0 ∨ io.uartAvailable < 2 := by
      by_cases h : s.link.mailListTim = 0
      · exact Or.inr (Nat.lt_of_not_le fun h2 => hread ⟨h, h2⟩)
      · exact Or.inl h
    rw [if_pos hguard]
    exact .other (if_neg fun h => hread h.1.1) (.of_shared rfl)

/-! ## Steps -/

/-- What a step does to the markers and to the messages 127 that wait. -/
inductive StepMarks (x : Sys) (a : Act) (y : Sys) : Prop
  | marks {road : UInt8} : missedRoad a x = some road → x.app.call.isHostBusy = 0 →
      takesRecord a x = false → Marks road x.app y.app → StepMarks x a y
  | ignored {road : UInt8} : missedRoad a x = some road → x.app.call.isHostBusy ≠ 0 →
      takesRecord a x = false → y.app.shared = x.app.shared → StepMarks x a y
  | record : missedRoad a x = none → takesRecord a x = true → y.app.call.marked = [] →
      Unmarks x.app.call y.app.call → x.app.waiting = y.app.waiting + 1 → StepMarks x a y
  | other : missedRoad a x = none → takesRecord a x = false → Leaves x.app y.app →
      StepMarks x a y

theorem waiting_cons {m : SocketMsg} {ms : List SocketMsg} {s : App} (hms : s.socketMsgs = m :: ms)
    (hm : m ≠ .msg127) : Leaves s { s with socketMsgs := ms } := by
  refine ⟨.of_eq rfl, ?_⟩
  unfold App.waiting
  rw [hms, List.count_cons_of_ne hm]

theorem Steps.marks_cases {x y : Sys} {a : Act} (h : Steps x a y) : StepMarks x a y := by
  cases h with
  | @isCmd s ret =>
      refine .other rfl rfl ?_
      rw [Sys.ofJump_app]
      exact isCmd_leaves ret s
  | @recv s n ms chunk hms _ =>
      refine .other rfl rfl ?_
      rw [Sys.ofJump_app]
      exact (waiting_cons hms (by simp)).trans (message122_leaves n chunk _)
  | @socket s m ms io hms hm =>
      by_cases h127 : m = .msg127
      · subst h127
        obtain ⟨hmarked, hunmarks, hwaiting⟩ := message127_marked { s with socketMsgs := ms }
        refine .record rfl ?_ hmarked hunmarks ?_
        · simp only [takesRecord, hms]
        · show s.waiting = (message127 { s with socketMsgs := ms }).waiting + 1
          rw [hwaiting]
          unfold App.waiting
          rw [hms, List.count_cons_self]
      · refine .other rfl ?_ ((waiting_cons hms h127).trans (socketTestThread_leaves io hm h127 _))
        cases m with
        | msg127 => exact absurd rfl h127
        | _ => simp only [takesRecord, hms]
  | @audio s m ms io hms =>
      have htakes : takesRecord (.audio io) ⟨s, none⟩ = false := rfl
      have hother : m ≠ .uart3Read → missedRoad (.audio io) ⟨s, none⟩ = none := by
        intro hne
        cases m with
        | uart3Read => exact absurd rfl hne
        | _ => simp only [missedRoad, hms]
      have hprompt : ∀ f, Leaves s (hmiPrompt f { s with audioMsgs := ms }) := fun f =>
        .of_shared (hmiPrompt_shared f { s with audioMsgs := ms })
      cases m with
      | uart3Read =>
          have hmissed : missedRoad (.audio io) ⟨s, none⟩ = missedButton io s := by
            simp only [missedRoad, hms]
          cases uart3Read_marks io { s with audioMsgs := ms } with
          | marks hroad hbusy hmarks =>
              exact .marks (hmissed.trans hroad) hbusy htakes
                ⟨hmarks.above, hmarks.markers, hmarks.marked, hmarks.waiting⟩
          | ignored hroad hbusy hshared => exact .ignored (hmissed.trans hroad) hbusy htakes hshared
          | other hnone hleaves =>
              exact .other (hmissed.trans hnone) htakes ⟨hleaves.unmarks, hleaves.waiting⟩
      | hmiNews2 => exact .other (hother (by simp)) htakes (hprompt .endConv)
      | hmiNews3 => exact .other (hother (by simp)) htakes (hprompt .tim60End)
      | hmiNews4 => exact .other (hother (by simp)) htakes (hprompt .busy)
      | _ => exact .other (hother (by simp)) htakes ⟨.of_eq rfl, rfl⟩
  | @mp3 s m ms io hms =>
      exact .other rfl rfl
        (.of_shared (audioPlayMP3Thread_shared io m { s with mp3Msgs := ms }))
  | @timerHeartbeat s io =>
      refine .other rfl rfl ?_
      dsimp only
      exact (timerHeartbeat_ticks io s).leaves
  | @socketEvent s e => exact .other rfl rfl (socketEventProcessCb_leaves e s)
  | @audioRecordCb s buff len => exact .other rfl rfl (audioRecordCb_leaves buff len s)
  | @audioPlayCb s => exact .other rfl rfl (audioPlayCb_leaves s)
  | timerHeartbeat2 _ | uart2Event | uart3Event => exact .other rfl rfl ⟨.of_eq rfl, rfl⟩

/-- Every marked channel has a message 127 that waits, and a marker above 2 is one. -/
structure MarkersOk (s : App) : Prop where
  marked_le : s.call.marked.length ≤ s.waiting
  above : ∀ m ∈ s.call.markers, 2 < m → 3 < m

theorem Unmarks.above {c d : Call} (h : Unmarks c d) (hc : ∀ m ∈ c.markers, 2 < m → 3 < m) :
    ∀ m ∈ d.markers, 2 < m → 3 < m := by
  intro m hm h2
  rcases h.mem hm with hm | hle
  · exact hc m hm h2
  · exact absurd (UInt8.lt_of_lt_of_le h2 hle) (by decide)

theorem MarkersOk.step {x y : Sys} {a : Act} (hx : MarkersOk x.app) (h : Steps x a y) :
    MarkersOk y.app := by
  have hle := hx.marked_le
  cases h.marks_cases with
  | marks _ _ _ hmarks =>
      refine ⟨?_, ?_⟩
      · rw [hmarks.marked.length_eq, hmarks.waiting, List.length_cons]
        omega
      · intro m hm h2
        rcases hmarks.markers m hm with hm | rfl
        · exact hx.above m hm h2
        · exact hmarks.above
  | ignored _ _ _ hshared =>
      have hleaves := Leaves.of_shared hshared
      exact ⟨Nat.le_trans hleaves.unmarks.marked_le (hleaves.waiting ▸ hle),
        hleaves.unmarks.above hx.above⟩
  | record _ _ hmarked hunmarks _ =>
      refine ⟨?_, hunmarks.above hx.above⟩
      rw [hmarked]
      exact Nat.zero_le _
  | other _ _ hleaves =>
      exact ⟨Nat.le_trans hleaves.unmarks.marked_le (hleaves.waiting ▸ hle),
        hleaves.unmarks.above hx.above⟩

theorem markersOk_init : MarkersOk Sys.init.app := by
  refine ⟨Nat.zero_le _, ?_⟩
  intro m hm h2
  have hzero : Sys.init.app.call.markers = [0, 0, 0, 0] := rfl
  have h0 : m = 0 := by simpa [hzero] using hm
  rw [h0] at h2
  exact absurd h2 (by decide)

theorem Reachable.markersOk {x : Sys} (h : Reachable x) : MarkersOk x.app :=
  h.invariant (I := fun x => MarkersOk x.app) markersOk_init fun _ _ _ hx hs => hx.step hs

/-- **A marker above 2 is there only while a message 127 waits**, so once every record is sent
no answer is taken to be for another channel. -/
theorem Reachable.not_above {x : Sys} (h : Reachable x) (hwait : x.app.waiting = 0) :
    ¬ ∃ m ∈ x.app.call.markers, 2 < m := by
  rintro ⟨m, hm, h2⟩
  have hmarked : m ∈ x.app.call.marked := by
    unfold Call.marked
    rw [List.mem_filter]
    exact ⟨hm, decide_eq_true (h.markersOk.above m hm h2)⟩
  have hpos := List.length_pos_of_mem hmarked
  have hle := h.markersOk.marked_le
  omega

/-! ## Answers for another channel -/

/-- A call of ours is on. -/
def CallingOut (s : App) : Prop :=
  s.call.callUserOperation = 1 ∨ s.call.callUserOperation = 2 ∨ s.call.callUserOperation = 3

instance (s : App) : Decidable (CallingOut s) := by unfold CallingOut; infer_instance

theorem CallingOut.ne {s : App} (h : CallingOut s) : (0 : UInt8) ≠ s.call.callUserOperation := by
  rcases h with h | h | h <;> rw [h] <;> decide

/-- During a call of ours a pass reads the answer to a call, and its road is another one. -/
structure ForeignAnswer (e : Run.Step Act Sys) : Prop where
  frame : frameAt e.pre = some .instruction4
  calling : CallingOut e.pre.app
  road : e.pre.app.rx.byteAt 8 ≠ e.pre.app.call.mailListRoad

instance (e : Run.Step Act Sys) : Decidable (ForeignAnswer e) :=
  decidable_of_iff (frameAt e.pre = some .instruction4 ∧ CallingOut e.pre.app ∧
    e.pre.app.rx.byteAt 8 ≠ e.pre.app.call.mailListRoad)
    ⟨fun h => ⟨h.1, h.2.1, h.2.2⟩, fun h => ⟨h.frame, h.calling, h.road⟩⟩

/-- The call goes on, and neither a stop nor a relay command is posted: nothing is, to either
thread of the audio side. -/
structure KeepsCall (s t : App) : Prop where
  callUserOperation : t.call.callUserOperation = s.call.callUserOperation
  callUserTim : t.call.callUserTim = s.call.callUserTim
  isHostBusy : t.call.isHostBusy = s.call.isHostBusy
  audioMsgs : t.audioMsgs = s.audioMsgs
  mp3Msgs : t.mp3Msgs = s.mp3Msgs

/-- The answers that leave the call alone: a refusal while a marker is above 2, and what changes
nothing by itself. -/
def Harmless (s : App) : Prop :=
  match CallReturn.ofCode (s.rx.byteAt 9) with
  | some .return0 => s.call.callUserOperation ≠ 1 ∨ ∃ m ∈ s.call.markers, 2 < m
  | some .return1 => s.call.callUserOperation = 2
  | some .return2 | some .return4 => False
  | some .return3 | some .return5 => ∃ m ∈ s.call.markers, 2 < m
  | none => True

instance (s : App) : Decidable (Harmless s) := by unfold Harmless; split <;> infer_instance

theorem breakOtherChannel_keeps {s : App} {c : Call} (h : breakOtherChannel s.call = some c) :
    KeepsCall s { s with call := c } := by
  unfold breakOtherChannel at h
  repeat' split at h
  all_goals first
    | (obtain rfl := Option.some.inj h; exact ⟨rfl, rfl, rfl, rfl, rfl⟩)
    | exact nomatch h

theorem dialBusy_keeps_iff {s : App} :
    KeepsCall s (dialBusy s) ↔ s.call.callUserOperation ≠ 1 ∨ ∃ m ∈ s.call.markers, 2 < m := by
  rw [← breakOtherChannel_isSome]
  unfold dialBusy
  by_cases hop : s.call.callUserOperation = 1
  · rw [if_pos hop]
    cases hb : breakOtherChannel s.call with
    | some c => exact ⟨fun _ => Or.inr rfl, fun _ => breakOtherChannel_keeps hb⟩
    | none =>
        refine ⟨fun h => ?_, fun h => ?_⟩
        · have hzero : (0 : UInt8) = s.call.callUserOperation := h.callUserOperation
          rw [hop] at hzero
          exact absurd hzero (by decide)
        · rcases h with h | h
          · exact absurd hop h
          · exact nomatch h
  · rw [if_neg hop]
    exact ⟨fun _ => Or.inl hop, fun _ => ⟨rfl, rfl, rfl, rfl, rfl⟩⟩

theorem dialRefused_keeps_iff {s : App} (hs : CallingOut s) :
    KeepsCall s (dialRefused s) ↔ ∃ m ∈ s.call.markers, 2 < m := by
  rw [← breakOtherChannel_isSome]
  unfold dialRefused
  cases hb : breakOtherChannel s.call with
  | some c => exact ⟨fun _ => rfl, fun _ => breakOtherChannel_keeps hb⟩
  | none => exact ⟨fun h => absurd h.callUserOperation hs.ne, fun h => nomatch h⟩

/-- The handler. -/
theorem dial_keeps_iff {s : App} (hs : CallingOut s) :
    KeepsCall s (dialReqReqCallReturnHander s) ↔ Harmless s := by
  have haccepted : ¬ KeepsCall s (dialAccepted s) := by
    intro h
    have hmsgs : s.mp3Msgs ++ [Mp3Msg.stopAudioStart] = s.mp3Msgs := h.mp3Msgs
    exact absurd hmsgs (by simp)
  unfold dialReqReqCallReturnHander Harmless
  cases CallReturn.ofCode (s.rx.byteAt 9) with
  | none => exact ⟨fun _ => trivial, fun _ => ⟨rfl, rfl, rfl, rfl, rfl⟩⟩
  | some r =>
      cases r with
      | return0 => exact dialBusy_keeps_iff
      | return1 =>
          exact ⟨fun h => h.callUserOperation.symm, fun h => ⟨h.symm, rfl, rfl, rfl, rfl⟩⟩
      | return2 => exact iff_of_false haccepted id
      | return3 => exact dialRefused_keeps_iff hs
      | return4 => exact iff_of_false haccepted id
      | return5 => exact dialRefused_keeps_iff hs

/-- The pass that reads it. -/
theorem Steps.keeps_iff_harmless {x y : Sys} {a : Act} (h : Steps x a y)
    (hf : ForeignAnswer ⟨x, a, y⟩) : KeepsCall x.app y.app ↔ Harmless x.app := by
  have hframe : frameAt x = some .instruction4 := hf.frame
  cases h with
  | @isCmd s ret =>
      rcases isCmd_frameAt ret s with ⟨c, hc, hcase⟩ | ⟨hnone, -⟩
      · rw [hframe] at hc
        obtain rfl := Option.some.inj hc
        rw [Sys.ofJump_app, hcase]
        have hdial := dial_keeps_iff (s := opened .instruction4 s) hf.calling
        refine Iff.trans ?_ hdial
        exact ⟨fun h => ⟨h.1, h.2, h.3, h.4, h.5⟩, fun h => ⟨h.1, h.2, h.3, h.4, h.5⟩⟩
      · rw [hframe] at hnone
        exact nomatch hnone
  | _ => exact nomatch hframe

/-- **The call goes on at the answers for other channels** exactly if each of them finds a marker
above 2, or changes nothing by itself. -/
theorem foreign_iff {l : List (Run.Step Act Sys)} {y : Sys} (hr : Run.Runs exec Sys.init l y) :
    (∀ e ∈ l, ForeignAnswer e → KeepsCall e.pre.app e.post.app) ↔
      ∀ e ∈ l, ForeignAnswer e → Harmless e.pre.app := by
  refine hr.forall_where_iff fun x a y _ hexec hf => ?_
  exact (exec_eq_some.mp hexec).keeps_iff_harmless hf

/-- The refusal for channel 2. -/
def refusalFrame : List UInt8 := [0xAA, 0xFA, 0x00, 0x00, 0x01, 0x04, 0x00, 0x02, 0x32, 0x33]

/-- The button of channel `k` is read. -/
def readButton (k : UInt8) : List Act :=
  [.uart3Event, .audio (Platform.reads [0x53, 0x59, 0, 0, 1, 0, 0, k])]

/-- Channel 1 is called and the button of channel 2 pressed; a refusal for channel 2 is read
before message 127 is handled. -/
theorem waitingRecord_keepsCall :
    ∃ l y, Run.Runs exec Sys.init l y ∧ (∃ e ∈ l, ForeignAnswer e) ∧
      ∀ e ∈ l, ForeignAnswer e → KeepsCall e.pre.app e.post.app := by
  obtain ⟨l, y, hr, hq⟩ := Runs.of_acts_test
    (l := buttonActs hostsFrame ++ [.socketEvent (.readInd 10)] ++ readButton 2 ++
      [.recv refusalFrame, .isCmd, .isCmd, .socket Platform.silent])
    (q := fun l _ => decide (∃ e ∈ l, ForeignAnswer e) &&
      l.all fun e => decide (ForeignAnswer e → Harmless e.pre.app))
    (by decide +kernel)
  rw [Bool.and_eq_true, decide_eq_true_eq, List.all_eq_true] at hq
  exact ⟨l, y, hr, hq.1, (foreign_iff hr).mpr fun e he => of_decide_eq_true (hq.2 e he)⟩

/-- The same with the refusal read after the record was sent: the call to channel 1 is over. -/
theorem sentRecord_not_keepsCall :
    ∃ l y, Run.Runs exec Sys.init l y ∧
      ¬ ∀ e ∈ l, ForeignAnswer e → KeepsCall e.pre.app e.post.app := by
  obtain ⟨l, y, hr, hq⟩ := Runs.of_acts_test
    (l := buttonActs hostsFrame ++ readButton 2 ++ [.socket Platform.silent,
      .socketEvent (.readInd 10), .recv refusalFrame, .isCmd])
    (q := fun l _ => l.any fun e => decide (ForeignAnswer e) &&
      decide (e.pre.app.call.callUserOperation = 1) &&
      decide (e.post.app.call.callUserOperation = 0))
    (by decide +kernel)
  refine ⟨l, y, hr, fun h => ?_⟩
  obtain ⟨e, he, hq⟩ := List.any_eq_true.mp hq
  simp only [Bool.and_eq_true, decide_eq_true_eq] at hq
  obtain ⟨⟨hforeign, hpre⟩, hpost⟩ := hq
  have hkeeps := (h e he hforeign).callUserOperation
  rw [hpre, hpost] at hkeeps
  exact absurd hkeeps (by decide)

end IntercomSalve
