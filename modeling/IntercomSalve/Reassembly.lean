/-
# `Reassembly` — the frame in progress, and the other messages

A voice frame that is not all there is awaited: `Current_data_length_save` bytes of it
have come, and the next receive goes on with it.  Between the two receives the socket
thread handles other messages.  Two of them clear the parser: the heartbeat without a
call, and the second at which the timer ends a call (`socketTestThread_rx`).  Every
other one leaves the frame in progress, and the next bytes are taken as its rest
(`TakesRest`).

Where the connection is closed the frame is lost anyway, so the law is about the
messages that do not close it (`reassembly_iff`).
-/
import IntercomSalve.CallTimer

namespace IntercomSalve

open Goto

/-! ## What the messages do to the parser -/

/-- The message clears the parser. -/
def clearsParser (m : SocketMsg) (s : App) : Prop :=
  m = .msg124 ∧ s.call.callUserOperation = 0 ∨ m = .msg126 ∧ timesOut s

instance (m : SocketMsg) (s : App) : Decidable (clearsParser m s) := by
  unfold clearsParser
  infer_instance

/-- A message other than 122 clears the parser, or leaves it alone. -/
theorem socketTestThread_rx (io : Platform) (m : SocketMsg) (s : App) :
    (socketTestThread io m s).rx = if clearsParser m s then s.rx.clear else s.rx := by
  have hno : m ≠ .msg124 → m ≠ .msg126 → ¬ clearsParser m s := by
    rintro h4 h6 (⟨h, -⟩ | ⟨h, -⟩)
    · exact h4 h
    · exact h6 h
  rw [rx_of_inner (socketTestThread_inner io m s)]
  cases m with
  | msg124 =>
      simp only [innerAfter, clearsParser, true_and, reduceCtorEq, false_and, or_false]
      split <;> rfl
  | msg126 =>
      simp only [innerAfter, clearsParser, true_and, reduceCtorEq, false_and, false_or]
      split <;> rfl
  | msg125 =>
      rw [if_neg (hno (by simp) (by simp))]
      unfold innerAfter
      dsimp only
      split <;> rfl
  | msg133 =>
      rw [if_neg (hno (by simp) (by simp))]
      unfold innerAfter
      dsimp only
      split
      · exact (audioStopV2_eq _).2
      · rfl
  | _ =>
      rw [if_neg (hno (by simp) (by simp))]
      rfl

/-! ## The rest of the frame -/

/-- Of the next receive the first `rest` bytes, or all if there are no more, are taken as voice,
and the search for a header begins behind them. -/
def TakesRest (rest : Nat) (s : App) : Prop :=
  ∀ n chunk, 1 ≤ chunk.length →
    (message122 n chunk s).state.play =
        fillAudio ((received n chunk s.rx.pRecv).ptr 0) (min rest chunk.length) s.play ∧
      (rest ≤ chunk.length →
        ∃ t, message122 n chunk s = .again t ∧ t.rx.handleDeviation = rest) ∧
      (chunk.length < rest → ∃ t, message122 n chunk s = .leave t)

/-- A frame in progress is gone on with. -/
theorem takesRest_of_save {s : App} (hs : ResumeOk s.rx) (hsave : s.rx.currentDataLengthSave ≠ 0) :
    TakesRest (s.rx.currentDataLength - s.rx.currentDataLengthSave) s := by
  obtain ⟨hvoice, hlt, -⟩ := hs hsave
  intro n chunk hchunk
  generalize hu : rewind (socketRecv n chunk s) = u
  have hstart : message122 n chunk s = resumeVoice chunk.length u := by
    unfold message122
    rw [if_neg (Nat.not_lt.mpr hchunk), if_pos hsave, hu]
  have hrest : sub32 u.rx.currentDataLength u.rx.currentDataLengthSave =
      s.rx.currentDataLength - s.rx.currentDataLengthSave := by
    subst hu
    exact sub32_of_le (Nat.le_of_lt hlt)
  have hcode : SocketInstruction.ofCode u.rx.analysisHandle = some .instruction10 := by
    subst hu
    exact SocketInstruction.ofCode_eq_some.mpr hvoice
  have hcursor : u.rx.handleDeviation = 0 := by
    subst hu
    rfl
  have hplay : u.play = s.play := by
    subst hu
    rfl
  have hbuf : u.rx.pRecv = received n chunk s.rx.pRecv := by
    subst hu
    rfl
  rw [hstart]
  unfold resumeVoice
  rw [if_pos hcode, hrest, ← hplay, ← hbuf]
  by_cases hall : s.rx.currentDataLength - s.rx.currentDataLengthSave ≤ chunk.length
  · rw [if_pos hall, Nat.min_eq_left hall]
    refine ⟨rfl, ?_, ?_⟩
    · intro _
      refine ⟨_, rfl, ?_⟩
      show u.rx.handleDeviation + _ = _
      rw [hcursor, Nat.zero_add]
    · intro h
      omega
  · rw [if_neg hall, Nat.min_eq_right (by omega)]
    refine ⟨rfl, ?_, ?_⟩
    · intro h
      omega
    · intro _
      exact ⟨_, rfl⟩

/-- **The frame in progress.**  In every reachable state in which part of a frame is missing, it
is voice, less of it has come than was declared, the difference of the two lengths does not
wrap, and the next receive goes on with it. -/
theorem frame_resumes {x : Sys} (h : Reachable x) (hsave : 0 < x.app.rx.currentDataLengthSave) :
    x.app.rx.analysisHandle = 0x0A ∧
      x.app.rx.currentDataLengthSave < x.app.rx.currentDataLength ∧
      x.app.rx.currentDataLength ≤ 65535 ∧
      sub32 x.app.rx.currentDataLength x.app.rx.currentDataLengthSave =
        x.app.rx.currentDataLength - x.app.rx.currentDataLengthSave ∧
      TakesRest (x.app.rx.currentDataLength - x.app.rx.currentDataLengthSave) x.app := by
  have hne := Nat.ne_of_gt hsave
  obtain ⟨hvoice, hlt, hle⟩ := h.parserOk.resume hne
  exact ⟨hvoice, hlt, hle, sub32_of_le (Nat.le_of_lt hlt), takesRest_of_save h.parserOk.resume hne⟩

/-! ## The law -/

/-- The step closes the socket. -/
def closesSocket (e : Run.Step Act Sys) : Prop :=
  .socketClose ∈ e.post.app.out.drop e.pre.app.out.length

instance (e : Run.Step Act Sys) : Decidable (closesSocket e) := by
  unfold closesSocket
  infer_instance

/-- The message the socket thread handles in a step. -/
def messageOf (e : Run.Step Act Sys) : Option SocketMsg :=
  match e.act with
  | .socket _ => e.pre.app.socketMsgs.head?
  | _ => none

/-- A message other than 122 finds a frame in progress, and does not close the socket. -/
structure FindsFrame (e : Run.Step Act Sys) : Prop where
  message : (messageOf e).isSome = true
  save : 0 < e.pre.app.rx.currentDataLengthSave
  opened : ¬ closesSocket e

theorem findsFrame_iff {e : Run.Step Act Sys} :
    (messageOf e).isSome = true ∧ 0 < e.pre.app.rx.currentDataLengthSave ∧ ¬ closesSocket e ↔
      FindsFrame e :=
  ⟨fun h => ⟨h.1, h.2.1, h.2.2⟩, fun h => ⟨h.message, h.save, h.opened⟩⟩

instance (e : Run.Step Act Sys) : Decidable (FindsFrame e) := decidable_of_iff _ findsFrame_iff

/-- The frame stays in progress, and its rest will be taken as voice. -/
structure KeepsFrame (e : Run.Step Act Sys) : Prop where
  currentDataLengthSave :
    e.post.app.rx.currentDataLengthSave = e.pre.app.rx.currentDataLengthSave
  currentDataLength : e.post.app.rx.currentDataLength = e.pre.app.rx.currentDataLength
  analysisHandle : e.post.app.rx.analysisHandle = e.pre.app.rx.analysisHandle
  rest : TakesRest (e.pre.app.rx.currentDataLength - e.pre.app.rx.currentDataLengthSave)
    e.post.app

/-- The step clears the parser. -/
def clearsFrame (e : Run.Step Act Sys) : Prop :=
  messageOf e = some .msg124 ∧ e.pre.app.call.callUserOperation = 0 ∨
    messageOf e = some .msg126 ∧ timesOut e.pre.app

instance (e : Run.Step Act Sys) : Decidable (clearsFrame e) := by
  unfold clearsFrame
  infer_instance

theorem Steps.message_rx {x y : Sys} {a : Act} (h : Steps x a y)
    (hm : (messageOf ⟨x, a, y⟩).isSome = true) :
    y.app.rx = if clearsFrame ⟨x, a, y⟩ then x.app.rx.clear else x.app.rx := by
  cases h with
  | @socket s m ms io hms _ =>
      have hmsg : messageOf ⟨⟨s, none⟩, .socket io,
          ⟨socketTestThread io m { s with socketMsgs := ms }, none⟩⟩ = some m := by
        simp only [messageOf, hms, List.head?_cons]
      have hclears : clearsFrame ⟨⟨s, none⟩, .socket io,
          ⟨socketTestThread io m { s with socketMsgs := ms }, none⟩⟩ ↔
            clearsParser m { s with socketMsgs := ms } := by
        unfold clearsFrame
        rw [hmsg, Option.some.injEq, Option.some.injEq]
        exact Iff.rfl
      simp only [hclears]
      exact socketTestThread_rx io m { s with socketMsgs := ms }
  | _ => exact nomatch hm

/-- **The frame in progress outlives the other messages** exactly if they are not the heartbeat
without a call and not the second that ends a call. -/
theorem reassembly_iff {l : List (Run.Step Act Sys)} {y : Sys} (hr : Run.Runs exec Sys.init l y) :
    (∀ e ∈ l, FindsFrame e → KeepsFrame e) ↔ ∀ e ∈ l, FindsFrame e → ¬ clearsFrame e := by
  refine hr.forall_where_iff fun x a y hreach hexec hfinds => ?_
  have hrx := (exec_eq_some.mp hexec).message_rx hfinds.message
  have hsave : x.app.rx.currentDataLengthSave ≠ 0 := Nat.ne_of_gt hfinds.save
  constructor
  · intro hkeeps hclears
    have hsame : y.app.rx.currentDataLengthSave = x.app.rx.currentDataLengthSave :=
      hkeeps.currentDataLengthSave
    rw [hrx, if_pos hclears] at hsame
    exact hsave hsame.symm
  · intro hkeeps
    rw [if_neg hkeeps] at hrx
    have hresume : ResumeOk y.app.rx := by
      rw [hrx]
      exact (Reachable.parserOk hreach).resume
    have hrest := takesRest_of_save hresume (by rw [hrx]; exact hsave)
    rw [hrx] at hrest
    exact ⟨congrArg _ hrx, congrArg _ hrx, congrArg _ hrx, hrest⟩

/-! ## A voice frame in two pieces -/

/-- Power-on, the log-in, and the list of hosts. -/
def loggedInActs : List Act :=
  [.socket { Platform.silent with socketFd := some 1 }, .socketEvent .connectRsp,
    .socket Platform.silent, .socketEvent (.readInd 12),
    .recv [0xAA, 0xFA, 0x00, 0x00, 0x01, 0x02, 0x00, 0x04, 0, 1, 1, 1], .isCmd, .isCmd,
    .socketEvent (.readInd hostsFrame.length), .recv hostsFrame, .isCmd, .isCmd]

/-- The first half of a voice frame of four bytes. -/
def halfVoiceFrame : List UInt8 := [0xAA, 0xFA, 0x00, 0x00, 0x01, 0x0A, 0x00, 0x04, 0x11, 0x22]

/-- Two of its four bytes have come. -/
theorem halfVoiceFrame_resumes :
    ∃ x, Reachable x ∧ x.app.rx.currentDataLengthSave = 2 ∧ x.app.rx.currentDataLength = 4 ∧
      TakesRest 2 x.app := by
  have hrun : ∃ l y, Run.Runs exec Sys.init l y ∧
      decide (y.app.rx.currentDataLengthSave = 2 ∧ y.app.rx.currentDataLength = 4) = true :=
    Runs.of_acts_test
      (l := [.socket Platform.silent, .socketEvent (.readInd 10), .recv halfVoiceFrame, .isCmd])
      (q := fun _ y =>
        decide (y.app.rx.currentDataLengthSave = 2 ∧ y.app.rx.currentDataLength = 4))
      (by decide +kernel)
  obtain ⟨l, y, hr, hq⟩ := hrun
  obtain ⟨hsave, hlen⟩ := of_decide_eq_true hq
  have hrest := (frame_resumes ⟨l, hr⟩ (by rw [hsave]; decide)).2.2.2.2
  rw [hsave, hlen] at hrest
  exact ⟨y, ⟨l, hr⟩, hsave, hlen, hrest⟩

/-- A date report is handled while a frame is in progress. -/
theorem dateReport_keepsFrame :
    ∃ l y, Run.Runs exec Sys.init l y ∧ (∃ e ∈ l, FindsFrame e) ∧
      ∀ e ∈ l, FindsFrame e → KeepsFrame e := by
  obtain ⟨l, y, hr, hq⟩ := Runs.of_acts_test
    (l := loggedInActs ++ List.replicate 19 (.timerHeartbeat Platform.silent) ++
      [.socketEvent (.readInd 10), .timerHeartbeat Platform.silent, .recv halfVoiceFrame, .isCmd,
        .socket Platform.silent])
    (q := fun l _ => decide (∃ e ∈ l, FindsFrame e) && l.all fun e =>
      decide (FindsFrame e → ¬ clearsFrame e))
    (by decide +kernel)
  rw [Bool.and_eq_true, decide_eq_true_eq, List.all_eq_true] at hq
  exact ⟨l, y, hr, hq.1, (reassembly_iff hr).mpr fun e he => of_decide_eq_true (hq.2 e he)⟩

/-- The heartbeat of the sixtieth second is posted just after a frame has been announced: it
clears the parser, and the rest of the frame will be searched for a header. -/
theorem heartbeat_not_keepsFrame :
    ∃ l y, Run.Runs exec Sys.init l y ∧ ¬ ∀ e ∈ l, FindsFrame e → KeepsFrame e := by
  obtain ⟨l, y, hr, hq⟩ := Runs.of_acts_test
    (l := loggedInActs ++ List.replicate 59 (.timerHeartbeat Platform.silent) ++
      List.replicate 2 (.socket Platform.silent) ++
      [.socketEvent (.readInd 10), .timerHeartbeat Platform.silent, .recv halfVoiceFrame, .isCmd,
        .socket Platform.silent, .socket Platform.silent])
    (q := fun l _ => l.any fun e => decide (FindsFrame e) &&
      decide (e.post.app.rx.currentDataLengthSave = 0))
    (by decide +kernel)
  refine ⟨l, y, hr, fun h => ?_⟩
  obtain ⟨e, he, hq⟩ := List.any_eq_true.mp hq
  simp only [Bool.and_eq_true, decide_eq_true_eq] at hq
  have hkeeps := (h e he hq.1).currentDataLengthSave
  rw [hq.2] at hkeeps
  exact absurd hkeeps.symm (Nat.ne_of_gt hq.1.save)

end IntercomSalve
