/-
# `CallTimer` — a call ends with its timer, and what the end does

`call_overtime_fun` counts a second and, when the time is over, ends the call: either
nothing has changed but the counter, or everything is cleared (`quit`), in whichever of the
four states the call was (`callOvertimeFun_inner`).

`secondsLeft` is how often the function can be called on an 8-bit counter that starts
anywhere.  In a run without frames every call of it takes one of them away
(`secondsLeft_run`), so the call is over after at most 62 (`call_ends`).

The relay that is opened at the end is the one the byte behind a leftover cursor names,
and that is the right one exactly if that byte is the road of the call (`released_iff`).
-/
import IntercomSalve.Overtime

namespace IntercomSalve

/-! ## The end of a call -/

/-- A call is on. -/
def InCall (s : App) : Prop :=
  s.call.callUserOperation = 1 ∨ s.call.callUserOperation = 2 ∨ s.call.callUserOperation = 3 ∨
    s.call.callUserOperation = 5

/-- All that the source clears at the end of a call. -/
structure Cleared (s : App) : Prop where
  callUserOperation : s.call.callUserOperation = 0
  callUserTim : s.call.callUserTim = 0
  mailListRoad1 : s.call.mailListRoad1 = 0
  mailListRoad2 : s.call.mailListRoad2 = 0
  mailListRoad3 : s.call.mailListRoad3 = 0
  mailListRoad4 : s.call.mailListRoad4 = 0
  mailListId : s.call.mailListId = 0
  audioDataNumSend : s.record.audioDataNumSend = 0
  handleDeviation : s.rx.handleDeviation = 0
  currentDataLength : s.rx.currentDataLength = 0
  currentDataLengthSave : s.rx.currentDataLengthSave = 0
  analysisHandle : s.rx.analysisHandle = 0

theorem cleared_of_inner {s t : App} (h : s.inner = (quit t).inner) : Cleared s := by
  constructor
  all_goals first | rw [call_of_inner h] | rw [rx_of_inner h] | rw [record_of_inner h]
  all_goals rfl

/-- The time is over. -/
theorem callOvertimeFun_cleared (io : Platform) {s : App} (h : timesOut s) :
    Cleared (callOvertimeFun io s) := by
  refine cleared_of_inner (t := callSecond s) ?_
  rw [callOvertimeFun_inner, if_pos h]

/-- It is not, and only the counter has moved. -/
theorem callOvertimeFun_counts (io : Platform) {s : App} (h : ¬ timesOut s) :
    (callOvertimeFun io s).call = (callSecond s).call := by
  have hinner := callOvertimeFun_inner io s
  rw [if_neg h] at hinner
  exact call_of_inner hinner

/-! ## The seconds that are left -/

/-- How often `call_overtime_fun` can be called before the call is over: an 8-bit counter that
stands at 255 begins again. -/
def secondsLeft (tim : UInt8) : Nat :=
  if tim = 255 then 62 else if tim < 60 then 61 - tim.toNat else 1

theorem secondsLeft_pos (tim : UInt8) : 0 < secondsLeft tim := by
  unfold secondsLeft
  split
  · decide
  · split
    · next h =>
        have hlt : tim.toNat < 60 := h
        omega
    · decide

theorem secondsLeft_le (tim : UInt8) : secondsLeft tim ≤ 62 := by
  unfold secondsLeft
  split
  · decide
  · split
    · omega
    · decide

/-- A second that is not the last takes one away. -/
theorem secondsLeft_succ {tim : UInt8} (h : ¬ tim + 1 > callMaxTim) :
    secondsLeft (tim + 1) + 1 ≤ secondsLeft tim := by
  have hall : ∀ tim : Fin 256, ¬ UInt8.ofNat tim + 1 > callMaxTim →
      secondsLeft (UInt8.ofNat tim + 1) + 1 ≤ secondsLeft (UInt8.ofNat tim) := by
    decide +kernel
  have hfin := hall ⟨tim.toNat, tim.toNat_lt⟩
  simp only [UInt8.ofNat_toNat] at hfin
  exact hfin h

/-- In a call that does not time out, the counter is not beyond the limit. -/
theorem tim_le_of_goesOn {s : App} (hin : InCall s) (h : ¬ timesOut s) :
    ¬ s.call.callUserTim + 1 > callMaxTim := by
  intro htim
  refine h ?_
  rcases hin with h1 | h2 | h3 | h5
  · exact Or.inl ⟨Or.inl h1, htim⟩
  · exact Or.inl ⟨Or.inr h2, htim⟩
  · exact Or.inr ⟨Or.inl h3, Or.inr htim⟩
  · exact Or.inr ⟨Or.inr h5, Or.inr htim⟩

/-! ## Runs -/

/-- The actions that bring a frame. -/
def Act.receives : Act → Bool
  | .recv _ | .isCmd => true
  | _ => false

/-- The step is one of `call_overtime_fun`. -/
def countsSecond (e : Run.Step Act Sys) : Bool := takesTimer e.act e.pre.app.socketMsgs

/-- How often a run calls it. -/
def seconds (l : List (Run.Step Act Sys)) : Nat := l.countP countsSecond

/-- The state of the call, and its timer. -/
def App.clock (s : App) : UInt8 × UInt8 := (s.call.callUserOperation, s.call.callUserTim)

theorem Tick.clock_eq {s t : App} (h : Tick s t) : t.clock = s.clock := by
  cases h <;> rfl

theorem timerHeartbeat_clock (io : Platform) (s : App) : (timerHeartbeat io s).clock = s.clock :=
  (timerHeartbeat_ticks io s).keeps_eq fun _ _ => Tick.clock_eq

theorem clock_of_inner {s t : App} (h : s.inner = t.inner) : s.clock = t.clock := by
  unfold App.clock
  rw [call_of_inner h]

/-- The other messages leave both alone. -/
theorem socketTestThread_clock (io : Platform) {m : SocketMsg} (hm : m ≠ .msg126) (s : App) :
    (socketTestThread io m s).clock = s.clock := by
  refine (clock_of_inner (socketTestThread_inner io m s)).trans ?_
  unfold innerAfter
  split
  · split <;> rfl
  · split <;> rfl
  · exact absurd rfl hm
  · rfl
  · split
    · unfold App.clock
      rw [(audioStopV2_eq _).1]
    · rfl
  · rfl

/-- What the audio side does in a call. -/
theorem AudioSide.clock_eq {s t : App} (h : AudioSide s t) (hs : s.call.callUserOperation ≠ 0) :
    t.clock = s.clock := by
  have hop : t.call.callUserOperation = s.call.callUserOperation := by
    rcases h.operation with hop | ⟨h0, -⟩
    · exact hop
    · exact absurd h0 hs
  exact Prod.ext hop h.callUserTim

theorem InCall.ne {s : App} (h : InCall s) : s.call.callUserOperation ≠ 0 := by
  intro h0
  unfold InCall at h
  rw [h0] at h
  exact absurd h (by decide)

/-- **A step without a frame, in a call**: the timer ends the call, or counts a second, or the
step does not concern it. -/
theorem Steps.clock_cases {x y : Sys} {a : Act} (h : Steps x a y) (hin : InCall x.app)
    (ha : a.receives = false) :
    (countsSecond ⟨x, a, y⟩ = true ∧ Cleared y.app) ∨
      (countsSecond ⟨x, a, y⟩ = true ∧ ¬ x.app.call.callUserTim + 1 > callMaxTim ∧
        y.app.clock = (x.app.call.callUserOperation, x.app.call.callUserTim + 1)) ∨
      (countsSecond ⟨x, a, y⟩ = false ∧ y.app.clock = x.app.clock) := by
  cases h with
  | isCmd => exact nomatch ha
  | recv _ _ => exact nomatch ha
  | @socket s m ms io hms hm =>
      by_cases h126 : m = .msg126
      · subst h126
        have htakes : takesTimer (.socket io) s.socketMsgs = true := by rw [hms]; rfl
        by_cases hout : timesOut { s with socketMsgs := ms }
        · exact Or.inl ⟨htakes, callOvertimeFun_cleared io hout⟩
        · have hcall := callOvertimeFun_counts io hout
          have htim := tim_le_of_goesOn (s := { s with socketMsgs := ms }) hin hout
          refine Or.inr (Or.inl ⟨htakes, htim, ?_⟩)
          show ((callOvertimeFun io { s with socketMsgs := ms }).call.callUserOperation,
            (callOvertimeFun io { s with socketMsgs := ms }).call.callUserTim) = _
          rw [hcall]
          rfl
      · have htakes : takesTimer (.socket io) s.socketMsgs = false := by
          rw [hms]
          cases m with
          | msg126 => exact absurd rfl h126
          | _ => rfl
        exact Or.inr (Or.inr ⟨htakes, socketTestThread_clock io h126 _⟩)
  | @audio s m ms io hms =>
      exact Or.inr (Or.inr ⟨rfl,
        (audioDuplexthread_audioSide io m { s with audioMsgs := ms }).clock_eq hin.ne⟩)
  | @mp3 s m ms io hms =>
      exact Or.inr (Or.inr ⟨rfl,
        (audioPlayMP3Thread_audioSide io m { s with mp3Msgs := ms }).clock_eq hin.ne⟩)
  | @timerHeartbeat s io =>
      refine Or.inr (Or.inr ⟨rfl, ?_⟩)
      dsimp only
      exact timerHeartbeat_clock io s
  | @socketEvent s e =>
      refine Or.inr (Or.inr ⟨rfl, ?_⟩)
      cases e <;> rfl
  | @audioRecordCb s buff len =>
      exact Or.inr (Or.inr ⟨rfl, (audioRecordCb_audioSide buff len s).clock_eq hin.ne⟩)
  | @audioPlayCb s => exact Or.inr (Or.inr ⟨rfl, (audioPlayCb_audioSide s).clock_eq hin.ne⟩)
  | timerHeartbeat2 _ | uart2Event | uart3Event => exact Or.inr (Or.inr ⟨rfl, rfl⟩)

theorem seconds_snoc (l : List (Run.Step Act Sys)) (e : Run.Step Act Sys) :
    seconds (l ++ [e]) = seconds l + if countsSecond e then 1 else 0 := by
  unfold seconds
  rw [List.countP_append, List.countP_singleton]

/-- In a run, a step at which the timer ends the call that the run began with. -/
def EndsAt (x : Sys) (l : List (Run.Step Act Sys)) : Prop :=
  ∃ l₁ e l₂, l = l₁ ++ e :: l₂ ∧ countsSecond e = true ∧
    seconds l₁ < secondsLeft x.app.call.callUserTim ∧
    (∀ e' ∈ l₁, e'.post.app.call.callUserOperation = x.app.call.callUserOperation) ∧
      Cleared e.post.app

theorem EndsAt.append {x : Sys} {l : List (Run.Step Act Sys)} (h : EndsAt x l)
    (r : List (Run.Step Act Sys)) : EndsAt x (l ++ r) := by
  obtain ⟨l₁, e, l₂, rfl, hrest⟩ := h
  exact ⟨l₁, e, l₂ ++ r, by simp, hrest⟩

/-- **A run without frames.**  Either the timer has ended the call, or the call is on and every
second that was counted is one less that is left. -/
theorem secondsLeft_run {x y : Sys} {l : List (Run.Step Act Sys)} (hr : Run.Runs exec x l y)
    (hin : InCall x.app) (hl : ∀ e ∈ l, e.act.receives = false) :
    EndsAt x l ∨
      (y.app.call.callUserOperation = x.app.call.callUserOperation ∧
        (∀ e ∈ l, e.post.app.call.callUserOperation = x.app.call.callUserOperation) ∧
        seconds l + secondsLeft y.app.call.callUserTim ≤ secondsLeft x.app.call.callUserTim) := by
  induction hr with
  | nil => exact Or.inr ⟨rfl, fun e he => absurd he List.not_mem_nil, by simp [seconds]⟩
  | @snoc l y z a hr he ih =>
      rcases ih fun e hm => hl e (List.mem_append_left _ hm) with hend | ⟨hop, hall, hleft⟩
      · exact Or.inl (hend.append _)
      · have hact := hl ⟨y, a, z⟩ (List.mem_append_right _ (List.mem_singleton_self _))
        have hiny : InCall y.app := by
          unfold InCall at hin ⊢
          rwa [hop]
        have hpos := secondsLeft_pos y.app.call.callUserTim
        have hsnoc : (z.app.call.callUserOperation = x.app.call.callUserOperation) →
            ∀ e ∈ l ++ [(⟨y, a, z⟩ : Run.Step Act Sys)],
              e.post.app.call.callUserOperation = x.app.call.callUserOperation := by
          intro hz e hm
          rcases List.mem_append.mp hm with hm | hm
          · exact hall e hm
          · obtain rfl := List.mem_singleton.mp hm
            exact hz
        rcases (exec_eq_some.mp he).clock_cases hiny hact with
          ⟨hcount, hclear⟩ | ⟨hcount, htim, hclock⟩ | ⟨hcount, hclock⟩
        · exact Or.inl ⟨l, ⟨y, a, z⟩, [], rfl, hcount, by omega, hall, hclear⟩
        · obtain ⟨hzop, hztim⟩ := Prod.mk.inj hclock
          have hless := secondsLeft_succ htim
          refine Or.inr ⟨hzop.trans hop, hsnoc (hzop.trans hop), ?_⟩
          rw [seconds_snoc, hcount, hztim, if_pos rfl]
          omega
        · obtain ⟨hzop, hztim⟩ := Prod.mk.inj hclock
          refine Or.inr ⟨hzop.trans hop, hsnoc (hzop.trans hop), ?_⟩
          rw [seconds_snoc, hcount, hztim, if_neg (by decide)]
          exact hleft

/-- **A call cannot outlive its timer.**  From any state in a call, in a run without frames in
which `call_overtime_fun` is called 62 times, one of these calls ends the call and clears
everything; until then the call is on. -/
theorem call_ends {x y : Sys} {l : List (Run.Step Act Sys)} (hr : Run.Runs exec x l y)
    (hin : InCall x.app) (hl : ∀ e ∈ l, e.act.receives = false) (hseconds : 62 ≤ seconds l) :
    ∃ l₁ e l₂, l = l₁ ++ e :: l₂ ∧ countsSecond e = true ∧ seconds l₁ < 62 ∧
      (∀ e' ∈ l₁, e'.post.app.call.callUserOperation = x.app.call.callUserOperation) ∧
        Cleared e.post.app := by
  have hmax := secondsLeft_le x.app.call.callUserTim
  rcases secondsLeft_run hr hin hl with ⟨l₁, e, l₂, hsplit, hcount, hlt, hrest⟩ | ⟨-, -, hleft⟩
  · exact ⟨l₁, e, l₂, hsplit, hcount, by omega, hrest⟩
  · have hpos := secondsLeft_pos y.app.call.callUserTim
    omega

/-- A call out whose counter stands just before the wrap, and message 126 over and over. -/
def lateCaller : Sys :=
  ⟨{ App.init with
      call.callUserOperation := 1, call.callUserTim := 255
      socketMsgs := List.replicate 62 .msg126 }, none⟩

/-- Its end. -/
theorem lateCaller_ends :
    ∃ l y, Run.Runs exec lateCaller l y ∧
      ∃ l₁ e l₂, l = l₁ ++ e :: l₂ ∧ countsSecond e = true ∧ seconds l₁ < 62 ∧
      (∀ e' ∈ l₁, e'.post.app.call.callUserOperation = lateCaller.app.call.callUserOperation) ∧
        Cleared e.post.app := by
  have hrun : ∃ l y, Run.Runs exec lateCaller l y ∧
      (decide (62 ≤ seconds l) && l.all fun e => !e.act.receives) = true :=
    Run.Runs.of_trace_test (l := List.replicate 62 (.socket Platform.silent))
      (q := fun l _ => decide (62 ≤ seconds l) && l.all fun e => !e.act.receives)
      (by decide +kernel)
  obtain ⟨l, y, hr, hq⟩ := hrun
  rw [Bool.and_eq_true, decide_eq_true_eq, List.all_eq_true] at hq
  refine ⟨l, y, hr, call_ends hr (Or.inl rfl) ?_ hq.1⟩
  intro e he
  simpa using hq.2 e he

/-! ## The relay that is opened -/

/-- The timer ends a call: it has lasted too long, or nothing has come for too long. -/
def endsCall (e : Run.Step Act Sys) : Prop := countsSecond e = true ∧ timesOut e.pre.app

instance (e : Run.Step Act Sys) : Decidable (endsCall e) := by unfold endsCall; infer_instance

/-- The command that opens the relay of the call is posted. -/
def ReleasesRelay (e : Run.Step Act Sys) : Prop :=
  ∃ rest, e.post.app.wires.posted = e.pre.app.wires.posted ++
      [[0x63, 0x6d, 0x64, 0x02, e.pre.app.call.mailListRoad - 0x30, 0] ++ rest] ∧
    e.post.app.wires.pending = e.pre.app.wires.pending ++ [.uart3Write]

/-- At the end of a call the channel is read behind the cursor. -/
theorem Steps.ends_command {x y : Sys} {a : Act} (h : Steps x a y) (hx : HandleOk x.app)
    (hends : endsCall ⟨x, a, y⟩) :
    ∃ rest, y.app.wires.posted = x.app.wires.posted ++
        [[0x63, 0x6d, 0x64, 0x02, x.app.rx.byteAt 8 - 0x30, 0] ++ rest] ∧
      y.app.wires.pending = x.app.wires.pending ++ [.uart3Write] := by
  obtain ⟨hcount, hout⟩ := hends
  have hwires := h.wires_eq hx
  cases h with
  | @socket s m ms io hms _ =>
      cases m with
      | msg126 =>
          have hcommand : effectOf (.socket io) ⟨s, none⟩ =
              ⟨overtimeFrames s, some (relayCommand 0 s.rx)⟩ := by
            simp only [effectOf, hms, messageEffect, messageFrames, messageCommand]
            rw [if_pos hout]
          rw [hwires]
          simp only [wiresAfter, hcommand]
          exact ⟨_, rfl, rfl⟩
      | _ =>
          have htakes : takesTimer (.socket io) s.socketMsgs = true := hcount
          rw [hms] at htakes
          exact absurd htakes Bool.false_ne_true
  | _ => exact absurd hcount Bool.false_ne_true

/-- **The relay of the call is opened** exactly if its road stands behind the cursor that the
last receive has left. -/
theorem released_iff {l : List (Run.Step Act Sys)} {y : Sys} (hr : Run.Runs exec Sys.init l y) :
    (∀ e ∈ l, endsCall e → ReleasesRelay e) ↔
      ∀ e ∈ l, endsCall e → e.pre.app.rx.byteAt 8 = e.pre.app.call.mailListRoad := by
  refine hr.forall_where_iff fun x a y hreach hexec hends => ?_
  obtain ⟨rest, hposted, hpending⟩ :=
    (exec_eq_some.mp hexec).ends_command (Reachable.handleOk hreach) hends
  constructor
  · rintro ⟨rest', hposted', -⟩
    rw [hposted] at hposted'
    have hlast := List.append_cancel_left hposted'
    simp only [List.cons_append, List.nil_append, List.cons.injEq, and_true, true_and] at hlast
    exact (UInt8.sub_left_inj _).mp hlast.1
  · intro hbyte
    rw [hbyte] at hposted
    exact ⟨rest, hposted, hpending⟩

/-- Nobody answers for a minute.  The last frame was one without a case, where the cursor stays,
and behind it stands the channel of the button. -/
theorem lastFrame_released :
    ∃ l y, Run.Runs exec Sys.init l y ∧ (∃ e ∈ l, endsCall e) ∧
      ∀ e ∈ l, endsCall e → ReleasesRelay e := by
  obtain ⟨l, y, hr, hq⟩ := Runs.of_acts_test
    (l := buttonActs hostsFrame ++
      [.socketEvent (.readInd 9), .recv [0xAA, 0xFA, 0x00, 0x00, 0x01, 0x22, 0x00, 0x01, 0x31],
        .isCmd] ++ (List.replicate 61 callASecond).flatten)
    (q := fun l _ => decide (∃ e ∈ l, endsCall e) && l.all fun e =>
      decide (endsCall e → e.pre.app.rx.byteAt 8 = e.pre.app.call.mailListRoad))
    (by decide +kernel)
  rw [Bool.and_eq_true, decide_eq_true_eq, List.all_eq_true] at hq
  exact ⟨l, y, hr, hq.1, (released_iff hr).mpr fun e he => of_decide_eq_true (hq.2 e he)⟩

/-- Nobody answers for a minute, and the last frame was the list of hosts: behind it stands
nothing, and relay 0xD0 is opened instead of relay 1. -/
theorem unanswered_not_released :
    ∃ l y, Run.Runs exec Sys.init l y ∧ ¬ ∀ e ∈ l, endsCall e → ReleasesRelay e := by
  obtain ⟨l, y, hr, hq⟩ := Runs.of_acts_test
    (l := buttonActs hostsFrame ++ (List.replicate 61 callASecond).flatten)
    (q := fun l _ => l.any fun e => decide (endsCall e) &&
      decide (e.pre.app.call.mailListRoad = 0x31) &&
      decide ((e.post.app.wires.posted.getLast?.map fun bs => bs.getD 4 0) = some 0xD0))
    (by decide +kernel)
  refine ⟨l, y, hr, fun h => ?_⟩
  obtain ⟨e, he, hq⟩ := List.any_eq_true.mp hq
  simp only [Bool.and_eq_true, decide_eq_true_eq] at hq
  obtain ⟨⟨hends, hroad⟩, hlast⟩ := hq
  obtain ⟨rest, hposted, -⟩ := h e he hends
  rw [hposted, List.getLast?_append_of_ne_nil _ (by simp), hroad] at hlast
  exact absurd hlast (by simp)

end IntercomSalve
